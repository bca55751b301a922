/-
**What generators see.**

Main definitions:

* `Scaffold.Context` — the corpus, the settings, the provided fixtures and the resolutions;
* `Scaffold.Generated` — the artifacts of a generator, or its problems.
-/

import Scaffold.Artifact
import Scaffold.Fixture
import Scaffold.Resolution

set_option relaxedAutoImplicit false
set_option autoImplicit false

namespace Scaffold

/-- What generators see of a run. -/
structure Context where
  /-- The declarations. -/
  corpus : Corpus
  /-- The settings. -/
  settings : Settings
  /-- Expressions for values, which come before those of the settings. -/
  provider : FixtureProvider
  /-- The resolutions of the annotated declarations. -/
  resolutions : List Resolution

/-- The resolution of a declaration. -/
def Context.resolution? (ctx : Context) (name : String) : Option Resolution :=
  ctx.resolutions.find? fun r => r.declaration == name

/-- Whether a strategy applies to a declaration. -/
def Context.runs (ctx : Context) (name : String) (s : Strategy) : Bool :=
  (ctx.resolution? name).any (·.runs s)

/-- What a generator yields for a declaration: artifacts, or all problems that prevent them. -/
abbrev Generated := Except (List Problem) (List Artifact)

end Scaffold
