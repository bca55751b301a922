/-
**The names of the stored properties of a stub.**

A stub keeps up to four properties for each method, under the key of the method and a word that
says what is kept.  So two methods share a property exactly if they have one key.  A key is a first
choice made from the name of the method and its labels, or that choice with the number of its place
behind it where an earlier method has taken it.  The number is put there without another look, so
that the key it makes may be taken as well.

Main definitions:

* `Scaffold.Stub.Stored` — what a stub keeps for a method;
* `Scaffold.Stub.storedNames` — the names of the properties of a method.

Main results:

* `Scaffold.Stub.storageLines_eq_map` — the lines of a stub declare just these properties;
* `Scaffold.getElem_storageKeys` — the key of a method, from those of the methods before it;
* `Scaffold.nodup_storageKeys` — keys are different if no first choice is another one with digits
  behind it;
* `Scaffold.Stub.shares_storedName_iff` — **which methods share a property**: one that had to be
  numbered, with one whose key has this number.
-/

import Mathlib.Data.List.Nodup
import Scaffold.Stub

set_option relaxedAutoImplicit false
set_option autoImplicit false

namespace Scaffold

/-! ### Keys -/

/-- A choice that was taken before, or by an earlier key, gets the number of its place. -/
theorem getElem_numberKeys {index : Nat} {taken ks : List String} {i : Nat} (hi : i < ks.length)
    (hkey : i < (numberKeys index taken ks).length) :
    (numberKeys index taken ks)[i] =
      if ks[i] ∈ taken ∨ ks[i] ∈ (numberKeys index taken ks).take i then
        ks[i] ++ toString (index + i + 1)
      else ks[i] := by
  induction ks generalizing index taken i with
  | nil => simp at hi
  | cons k ks ih =>
      cases i with
      | zero => simp [numberKeys]
      | succ i =>
          simp only [numberKeys, List.getElem_cons_succ, List.take_succ_cons, List.mem_cons]
          rw [ih (by simpa using hi) (by simpa using hi)]
          simp only [List.mem_cons, or_left_comm, or_assoc, Nat.add_assoc, Nat.add_comm 1]

section Keys

variable {methods : List Method} {i j : Nat}

/-- **The key of a method**: its first choice, with the number of its place if that is taken. -/
theorem getElem_storageKeys (hi : i < methods.length) (hkey : i < (storageKeys methods).length) :
    (storageKeys methods)[i] =
      if plainKey methods methods[i] ∈ (storageKeys methods).take i then
        plainKey methods methods[i] ++ toString (i + 1)
      else plainKey methods methods[i] := by
  simp only [storageKeys]
  rw [getElem_numberKeys (by simpa using hi) (by simpa using hi)]
  simp

/-- Two methods have one key if the later of them is numbered, and its number makes the key of the
earlier. -/
theorem storageKeys_eq_iff (hij : i < j) (hj : j < methods.length)
    (hkey : i < (storageKeys methods).length) (hkey' : j < (storageKeys methods).length) :
    (storageKeys methods)[i] = (storageKeys methods)[j] ↔
      plainKey methods methods[j] ∈ (storageKeys methods).take j ∧
        plainKey methods methods[j] ++ toString (j + 1) = (storageKeys methods)[i] := by
  have hearlier : (storageKeys methods)[i] ∈ (storageKeys methods).take j :=
    List.mem_take_iff_getElem.2 ⟨i, by omega, rfl⟩
  rw [getElem_storageKeys hj hkey']
  split
  · next htaken => simp only [htaken, true_and, eq_comm]
  · next hfree =>
      refine iff_of_false ?_ fun h => hfree h.1
      intro heq
      exact hfree (heq ▸ hearlier)

/-! ### Numbers behind a choice -/

theorem isDigit_of_mem_toString {n : Nat} {c : Char} (h : c ∈ (toString n).toList) :
    c.isDigit = true := by
  rw [Nat.toString_eq_repr, Nat.toList_repr] at h
  exact Nat.isDigit_of_mem_toDigits (by decide) (by decide) h

/-- The digits of a number tell the number. -/
theorem eq_of_toList_toString_eq {m n : Nat} (h : (toString m).toList = (toString n).toList) :
    m = n := by
  simp only [Nat.toString_eq_repr, Nat.toList_repr] at h
  rw [← Nat.ofDigitChars_ten_toDigits (n := m), h, Nat.ofDigitChars_ten_toDigits]

/-- A text goes on from another one with digits. -/
def GoesOnWithDigits (longer shorter : String) : Prop :=
  ∃ digits : List Char, digits ≠ [] ∧ (∀ c ∈ digits, c.isDigit = true) ∧
    longer.toList = shorter.toList ++ digits

theorem goesOnWithDigits_append_toString (s : String) (n : Nat) :
    GoesOnWithDigits (s ++ toString n) s := by
  refine ⟨(toString n).toList, ?_, fun c hc => isDigit_of_mem_toString hc, by simp⟩
  rw [Nat.toString_eq_repr, Nat.toList_repr]
  exact Nat.toDigits_ne_nil

/-- Two texts with different numbers behind them are one text only if one of the two goes on from
the other with digits. -/
theorem goesOnWithDigits_of_append_eq {s t : String} {m n : Nat} (hne : m ≠ n)
    (h : s ++ toString m = t ++ toString n) : GoesOnWithDigits s t ∨ GoesOnWithDigits t s := by
  have hlists : s.toList ++ (toString m).toList = t.toList ++ (toString n).toList := by
    simpa using congrArg String.toList h
  rcases List.append_eq_append_iff.1 hlists with ⟨digits, ht, hm⟩ | ⟨digits, hs, hn⟩
  · refine Or.inr ⟨digits, ?_, fun c hc => ?_, ht⟩
    · rintro rfl
      exact hne (eq_of_toList_toString_eq (by simpa using hm))
    · exact isDigit_of_mem_toString (hm ▸ List.mem_append_left _ hc)
  · refine Or.inl ⟨digits, ?_, fun c hc => ?_, hs⟩
    · rintro rfl
      exact hne (eq_of_toList_toString_eq (by simpa using hn.symm))
    · exact isDigit_of_mem_toString (hn ▸ List.mem_append_left _ hc)

/-- **Keys are different** if no first choice goes on from another one with digits. -/
theorem nodup_storageKeys
    (h : ∀ m ∈ methods, ∀ m' ∈ methods,
      ¬GoesOnWithDigits (plainKey methods m) (plainKey methods m')) :
    (storageKeys methods).Nodup := by
  refine List.pairwise_iff_getElem.2 ?_
  intro i j hkey hkey' hij heq
  have hi : i < methods.length := by simpa using hkey
  have hj : j < methods.length := by simpa using hkey'
  obtain ⟨-, hnumbered⟩ := (storageKeys_eq_iff hij hj hkey hkey').1 heq
  rw [getElem_storageKeys hi hkey] at hnumbered
  split at hnumbered
  · rcases goesOnWithDigits_of_append_eq (by omega) hnumbered with hdigits | hdigits
    · exact h _ (List.getElem_mem hj) _ (List.getElem_mem hi) hdigits
    · exact h _ (List.getElem_mem hi) _ (List.getElem_mem hj) hdigits
  · refine h _ (List.getElem_mem hi) _ (List.getElem_mem hj) ?_
    rw [← hnumbered]
    exact goesOnWithDigits_append_toString _ _

end Keys

namespace Stub

/-! ### Properties -/

/-- What a stub keeps for a method. -/
inductive Stored where
  /-- The result to return, which is a given value at first. -/
  | result (value : String)
  /-- The error to throw, if there is one. -/
  | error
  /-- The number of calls. -/
  | callCount
  /-- The arguments of the calls. -/
  | received

namespace Stored

/-- The word that tells what is kept. -/
def word : Stored → String
  | .result _ => "Result"
  | .error => "Error"
  | .callCount => "CallCount"
  | .received => "Received"

/-- The name of a property. -/
def name (key : String) (p : Stored) : String := key ++ p.word

/-- What stands before the name of a property where it is declared. -/
def opening : Stored → String
  | .result _ | .error => "    var "
  | .callCount | .received => "    private(set) var "

/-- What stands behind the name of a property where it is declared. -/
def ending (m : Method) : Stored → String
  | .result value => ": " ++ m.result.storage.render ++ " = " ++ value
  | .error => ": (any Error)?"
  | .callCount => " = 0"
  | .received => ": [" ++ receivedType m.params ++ "] = []"

/-- The line that declares a property. -/
def line (key : String) (m : Method) (p : Stored) : String :=
  p.opening ++ p.name key ++ p.ending m

/-- The words end in different letters, so that the name of a property tells what is kept. -/
theorem word_eq_of_name_eq {key key' : String} {p q : Stored} (h : p.name key = q.name key') :
    p.word = q.word := by
  have hlists : key.toList ++ p.word.toList = key'.toList ++ q.word.toList := by
    simpa [name] using congrArg String.toList h
  have hends := congrArg (fun cs => cs.reverse.take 2) hlists
  cases p <;> cases q <;> first | rfl | simp [word] at hends

/-- The name of a property tells its key. -/
theorem key_eq_of_name_eq {key key' : String} {p q : Stored} (h : p.name key = q.name key') :
    key = key' := by
  have hword := word_eq_of_name_eq h
  rw [name, name, hword] at h
  exact (String.append_left_inj _).1 h

end Stored

/-- What is kept for a method whose result has a value at first. -/
def stored (m : Method) (value : Option String) : List Stored :=
  value.toList.map .result ++ (if m.effects.isThrowing then [.error] else []) ++ [.callCount] ++
    (if m.params.isEmpty then [] else [.received])

/-- The names of the properties of a method. -/
def storedNames (key : String) (m : Method) (value : Option String) : List String :=
  (stored m value).map (Stored.name key)

/-- The lines of the stored properties declare what is kept, each under its name. -/
theorem storageLines_eq_map (key : String) (m : Method) (value : Option String) :
    storageLines key m value = (stored m value).map (Stored.line key m) := by
  have hresult (v : String) : (Stored.result v).line key m =
      "    var " ++ key ++ "Result: " ++ m.result.storage.render ++ " = " ++ v := by
    rw [show "Result: " = "Result" ++ ": " from rfl]
    simp only [Stored.line, Stored.opening, Stored.name, Stored.word, Stored.ending,
      String.append_assoc]
  have herror : Stored.error.line key m = "    var " ++ key ++ "Error: (any Error)?" := by
    rw [show "Error: (any Error)?" = "Error" ++ ": (any Error)?" from rfl]
    simp only [Stored.line, Stored.opening, Stored.name, Stored.word, Stored.ending,
      String.append_assoc]
  have hcount : Stored.callCount.line key m =
      "    private(set) var " ++ key ++ "CallCount = 0" := by
    rw [show "CallCount = 0" = "CallCount" ++ " = 0" from rfl]
    simp only [Stored.line, Stored.opening, Stored.name, Stored.word, Stored.ending,
      String.append_assoc]
  have hreceived : Stored.received.line key m =
      "    private(set) var " ++ key ++ "Received: [" ++ receivedType m.params ++ "] = []" := by
    rw [show "Received: [" = "Received" ++ ": [" from rfl]
    simp only [Stored.line, Stored.opening, Stored.name, Stored.word, Stored.ending,
      String.append_assoc]
  simp only [storageLines, stored, List.map_append, List.map_map, List.map_cons, List.map_nil,
    apply_ite (List.map (Stored.line key m)), Function.comp_def, hresult, herror, hcount,
    hreceived]

/-- Every method has the number of its calls. -/
theorem callCount_mem_storedNames (key : String) (m : Method) (value : Option String) :
    Stored.callCount.name key ∈ storedNames key m value :=
  List.mem_map_of_mem (by simp [stored])

/-- Two methods have a property in common exactly if they have one key. -/
theorem exists_mem_storedNames_iff {key key' : String} {m m' : Method}
    {value value' : Option String} :
    (∃ name ∈ storedNames key m value, name ∈ storedNames key' m' value') ↔ key = key' := by
  constructor
  · rintro ⟨name, h, h'⟩
    obtain ⟨p, -, rfl⟩ := List.mem_map.1 h
    obtain ⟨q, -, heq⟩ := List.mem_map.1 h'
    exact (Stored.key_eq_of_name_eq heq).symm
  · rintro rfl
    exact ⟨_, callCount_mem_storedNames key m value, callCount_mem_storedNames key m' value'⟩

/-! ### Shared properties -/

/-- **Which methods of a stub share a property.**  There is a key for each method.  Two methods
share a property exactly if the first choice for the key of the later one is taken, and is the key
of the earlier one with the number of the later one behind it. -/
theorem shares_storedName_iff (fixtures : FixtureTable) {methods : List Method} {i j : Nat}
    (hij : i < j) (hj : j < methods.length) :
    ∃ hkeys : (storageKeys methods).length = methods.length,
      (∃ name ∈ storedNames (storageKeys methods)[i] methods[i] (resultValue? fixtures methods[i]),
        name ∈ storedNames (storageKeys methods)[j] methods[j]
          (resultValue? fixtures methods[j])) ↔
      plainKey methods methods[j] ∈ (storageKeys methods).take j ∧
        plainKey methods methods[j] ++ toString (j + 1) = (storageKeys methods)[i] :=
  ⟨length_storageKeys methods,
    exists_mem_storedNames_iff.trans (storageKeys_eq_iff hij hj (by simp; omega) (by simpa))⟩

/-- Two methods that a first choice does not tell apart, and a third one in between. -/
def finders : List Method :=
  [{ name := "find", params := [⟨some "id", "id", .primitive "Int", none, false⟩],
     effects := {}, result := .primitive "Bool" },
   { name := "drop", params := [], effects := {}, result := .void },
   { name := "find", params := [⟨none, "id", .primitive "Int", none, false⟩],
     effects := {}, result := .primitive "Bool" }]

/-- The keys of `finders` are `findId`, `drop` and `findId3`: nothing is shared. -/
theorem shares_storedName_iff_finders :
    let fixtures : FixtureTable := ⟨{}, {}, {}⟩
    (0 < 2 ∧ 2 < finders.length) ∧
      ¬∃ name ∈ storedNames "findId" finders[0] (resultValue? fixtures finders[0]),
        name ∈ storedNames "findId3" finders[2] (resultValue? fixtures finders[2]) := by
  refine ⟨by decide, fun hshared => ?_⟩
  have hlt : 2 < finders.length := by decide
  obtain ⟨hkeys, hiff⟩ := shares_storedName_iff ⟨{}, {}, {}⟩ (show 0 < 2 by decide) hlt
  exact absurd (show "findId3" = "findId" from (hiff.1 hshared).2) (by decide)

/-- A method whose key is the one that a later method gets with its number. -/
def findersWithNumber : List Method :=
  { name := "findId3", params := [], effects := {}, result := .void } ::
    finders.filter (·.name = "find")

/-- **A numbered key may be taken.**  The first and the third method have different selectors and
one key, so that the number of their calls is declared twice. -/
theorem numbered_key_taken :
    (findersWithNumber.map Method.selector).Nodup ∧
      storageKeys findersWithNumber = ["findId3", "findId", "findId3"] ∧
      ∃ m m', findersWithNumber[0]? = some m ∧ findersWithNumber[2]? = some m' ∧
        "    private(set) var findId3CallCount = 0" ∈ storageLines "findId3" m none ∧
        "    private(set) var findId3CallCount = 0" ∈ storageLines "findId3" m' (some "false") := by
  refine ⟨by decide, by decide, _, _, rfl, rfl, by decide, by decide⟩

end Stub

end Scaffold
