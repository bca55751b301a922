/-
**Settings in TOML.**

Main definitions:

* `Scaffold.Settings.Dialect.toml` — the details of the format;
* `Scaffold.Settings.ofToml?` — reading a text.
-/

import Scaffold.Settings.Json
import Scaffold.Toml.Reader

set_option relaxedAutoImplicit false
set_option autoImplicit false

namespace Scaffold.Settings

/-- In TOML, an empty table or array stands for nothing. -/
def isEmptyTree : Json.Tree → Bool
  | .arr [] => true
  | .obj [] => true
  | _ => false

/-- The details of TOML: numbers have to be in range even where they are ignored, but what an array
holds beyond the members of a record is not looked at. -/
def Dialect.toml : Dialect :=
  { isNothing := isEmptyTree, isIgnored := Json.Tree.isInRange, allowsSurplus := true }

/-- Reads settings from a TOML text. -/
def ofToml? (text : String) : Option Settings := do
  let document ← Toml.read? text
  ofTree? .toml document.toTree

end Scaffold.Settings
