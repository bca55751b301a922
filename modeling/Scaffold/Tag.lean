/-
**Tags and strategies.**

A marker above a declaration is recognized as a tag if it is one of the known spellings; the
declaration is then annotated.  All tags but one select a strategy, which generates code into an
output unit of its own.

Main definitions:

* `Scaffold.Tag`, `Scaffold.Tag.ofMarker?` — the tags and their spellings;
* `Scaffold.Strategy`, `Scaffold.Strategy.outputUnit` — the strategies and where they write;
* `Scaffold.Strategy.ofWord?` — a strategy named on the command line, in any case;
* `Scaffold.tagsOf` — the tags among markers, each once and in order.

Main results:

* `Scaffold.mem_tagsOf` — exactly the tags of some marker are found.
-/

import Scaffold.Text.Blank

set_option relaxedAutoImplicit false
set_option autoImplicit false

namespace Scaffold

/-- A way of generating code for declarations. -/
inductive Strategy where
  /-- A class that fails in every method. -/
  | failingMock
  /-- A class with settable results. -/
  | stub
  /-- An initializer from a transfer object. -/
  | mapping
  /-- An accessor in the table of dependencies. -/
  | registration
  /-- A reducer for a described feature. -/
  | feature
deriving DecidableEq, Repr, Inhabited

namespace Strategy

/-- The strategies in order. -/
def all : List Strategy := [.failingMock, .stub, .mapping, .registration, .feature]

/-- The name of a strategy. -/
def word : Strategy → String
  | .failingMock => "autoFailingMock"
  | .stub => "autoStub"
  | .mapping => "autoMappableFromDTO"
  | .registration => "autoregister"
  | .feature => "describesFeature"

/-- Strategies are told apart by their names. -/
theorem word_inj {s t : Strategy} : s.word = t.word ↔ s = t := by
  cases s <;> cases t <;> decide

/-- The name of the unit that collects what a strategy generates. -/
def outputUnit : Strategy → String
  | .failingMock => "AutoFailingMock.generated.swift"
  | .stub => "AutoStub.generated.swift"
  | .mapping => "AutoMappableFromDTO.generated.swift"
  | .registration => "Autoregister.generated.swift"
  | .feature => "Feature.generated.swift"

/-- The strategy with exactly the given name. -/
def ofName? (name : String) : Option Strategy :=
  all.find? fun s => s.word == name

/-- Whether two words differ at most in the case of ASCII letters. -/
def sameIgnoringCase (a b : String) : Bool :=
  a.toList.map Char.toLower == b.toList.map Char.toLower

/-- The strategy with the given name, in any case of its letters. -/
def ofWord? (word : String) : Option Strategy :=
  all.find? fun s => sameIgnoringCase s.word word

/-- The wording of an unknown strategy. -/
def unknownMessage (word : String) : String := "unknown strategy: " ++ word

end Strategy

/-- A recognized marker. -/
inductive Tag where
  /-- Generates a failing mock. -/
  | failingMock
  /-- Generates a stub. -/
  | stub
  /-- Generates a mapping. -/
  | mapping
  /-- Registers a dependency. -/
  | registration
  /-- Generates a feature. -/
  | feature
  /-- Lets a feature compose the features in its fields; it selects no strategy. -/
  | composition
deriving DecidableEq, Repr, Inhabited

namespace Tag

/-- The tags in order. -/
def all : List Tag := [.failingMock, .stub, .mapping, .registration, .feature, .composition]

/-- The main spelling of a tag. -/
def word : Tag → String
  | .failingMock => "autoFailingMock"
  | .stub => "autoStub"
  | .mapping => "autoMappableFromDTO"
  | .registration => "autoregister"
  | .feature => "describesFeature"
  | .composition => "containsComposition"

/-- All spellings of a tag. -/
def spellings : Tag → List String
  | .failingMock => ["autoFailingMock", "AutoFailingMock", "AutoFailing", "AsyncAutoFailing"]
  | .stub => ["autoStub", "AutoStub", "AsyncAutoStub"]
  | .mapping => ["autoMappableFromDTO", "AutoMappableFromDTO", "AutoMappable"]
  | .registration => ["autoregister", "swiftDepAutoregister", "AutoRegister"]
  | .feature => ["describesFeature", "describesTCAFeature"]
  | .composition => ["containsComposition"]

/-- The tag that a marker spells, blanks around it aside. -/
def ofMarker? (marker : String) : Option Tag :=
  all.find? fun a => a.spellings.contains (Text.trim marker)

/-- The strategy that a tag selects. -/
def strategy? : Tag → Option Strategy
  | .failingMock => some .failingMock
  | .stub => some .stub
  | .mapping => some .mapping
  | .registration => some .registration
  | .feature => some .feature
  | .composition => none

theorem mem_all (a : Tag) : a ∈ all := by cases a <;> simp [all]

end Tag

/-- The tag that selects a strategy. -/
def Strategy.tag : Strategy → Tag
  | .failingMock => .failingMock
  | .stub => .stub
  | .mapping => .mapping
  | .registration => .registration
  | .feature => .feature

/-- A strategy is selected by its tag. -/
@[simp] theorem Strategy.strategy?_tag (s : Strategy) :
    s.tag.strategy? = some s := by
  cases s <;> rfl

/-- A strategy is called like its tag. -/
@[simp] theorem Strategy.word_tag (s : Strategy) : s.tag.word = s.word := by
  cases s <;> rfl

/-- The tags that some marker spells, each once and in order. -/
def tagsOf (markers : List String) : List Tag :=
  Tag.all.filter fun a => (markers.filterMap Tag.ofMarker?).contains a

/-- Exactly the tags of some marker are found. -/
theorem mem_tagsOf {markers : List String} {a : Tag} :
    a ∈ tagsOf markers ↔ ∃ m ∈ markers, Tag.ofMarker? m = some a := by
  simp [tagsOf, Tag.mem_all]

end Scaffold
