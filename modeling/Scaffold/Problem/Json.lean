/-
**Problems in JSON.**

Main definitions:

* `Scaffold.Problem.toJson` — what went wrong, with the name of its kind in front.
-/

import Scaffold.Json.Basic
import Scaffold.Problem.Basic

set_option relaxedAutoImplicit false
set_option autoImplicit false

namespace Scaffold

/-- A problem in JSON. -/
def Problem.toJson : Problem → Json
  | .malformed declaration member reason line =>
    .obj [("error", .str "malformed_declaration"), ("declaration", .str declaration),
      ("member", .str? member), ("reason", .str reason.message), ("line", .nat line)]
  | .unresolvable declaration tag obstacle =>
    .obj [("error", .str "unresolvable_strategy"), ("declaration", .str declaration),
      ("strategy", .str tag.word), ("reason", .str obstacle.message)]
  | .missingFixture declaration member type =>
    .obj [("error", .str "missing_fixture"), ("declaration", .str declaration),
      ("member", .str member), ("type_name", .str type)]
  | .incompatible declaration counterpart fields =>
    .obj [("error", .str "incompatible_field_set"), ("declaration", .str declaration),
      ("counterpart", .str counterpart), ("fields", .strs fields)]
  | .ambiguous contract candidates =>
    .obj [("error", .str "ambiguous_registration"), ("contract", .str contract),
      ("candidates", .strs candidates)]
  | .unregistered contract =>
    .obj [("error", .str "unregistered_contract"), ("contract", .str contract)]
  | .compositionOrder declaration field child =>
    .obj [("error", .str "composition_order"), ("declaration", .str declaration),
      ("field", .str field), ("child", .str child)]

end Scaffold
