/-
**Bodies by positions.**

The items of a body are read by moving a position up to the end of the region.  Nested declarations
add to what was read so far, which is kept with the position, while the members are handed from one
item to the next.  A step through a body by positions follows a step by places if both know the same
afterwards: the members with the markers and attributes before the next one, what the nested
declarations have added, and the place to go on from or the same failure.

Main definitions:

* `Scaffold.Checked.itemsFrom` — the items of a region, one by one;
* `Scaffold.Checked.contractBody`, `Scaffold.Checked.valueBody`,
  `Scaffold.Checked.enumerationBody` — the readers;
* `Scaffold.Checked.Declares` — following a reader of nested declarations;
* `Scaffold.Checked.StepsTo`, `Scaffold.Checked.Yields` — following a step, and a whole body.

Main results:

* `Scaffold.Checked.yields_contractBody`, `Scaffold.Checked.yields_valueBody`,
  `Scaffold.Checked.yields_enumerationBody` — **bodies are the same**.
-/

import Scaffold.Proofs.CheckedMembers
import Scaffold.Proofs.UnitSplitting

set_option relaxedAutoImplicit false
set_option autoImplicit false

namespace Scaffold.Checked

open Cursor (BodyStep EnumerationState ValueState)

/-! ### What was read so far -/

/-- The state with more read. -/
def State.add (s : State) (o : Outcome) : State := { s with outcome := s.outcome ++ o }

namespace State

@[simp] theorem pos_add (s : State) (o : Outcome) : (s.add o).pos = s.pos := rfl

@[simp] theorem stop_add (s : State) (o : Outcome) : (s.add o).stop = s.stop := rfl

@[simp] theorem depth_add (s : State) (o : Outcome) : (s.add o).depth = s.depth := rfl

@[simp] theorem outcome_add (s : State) (o : Outcome) : (s.add o).outcome = s.outcome ++ o := rfl

@[simp] theorem add_to (s : State) (o : Outcome) (n : Nat) : (s.add o).to n = (s.to n).add o := rfl

@[simp] theorem add_empty (s : State) : s.add {} = s := by rw [add, Outcome.append_empty]

@[simp] theorem add_add (s : State) (a b : Outcome) : (s.add a).add b = s.add (a ++ b) := by
  rw [add, add, add, Outcome.append_assoc]

end State

theorem Stands.add {i : Input} {room least : Nat} {s : State} {c : Cursor}
    (h : Stands i room least s c) (o : Outcome) : Stands i room least (s.add o) c :=
  ⟨h.parts, h.depth, h.least⟩

theorem Nears.add {i : Input} {room least : Nat} {s : State} {c : Cursor}
    (h : Nears i room least s c) (o : Outcome) : Nears i room least (s.add o) c :=
  h.imp (·.add o) id

/-! ### Readers of bodies -/

section Readers

variable (i : Input)

/-- Reads items until none is left, given a reader of the item that a token begins. -/
def itemsFrom {α : Type} (item : α → Token → Reader α) : (fuel : Nat) → α → Reader α
  | 0, _ => access none
  | fuel + 1, x => do
    let s ← get
    match i.next? s with
    | none => return x
    | some t => do
      let y ← item x t
      itemsFrom item fuel y

/-- The failure of a word that opens no method or initializer of a protocol. -/
def Input.unclassifiable (s : State) (word : String) : Failure :=
  let member := match i.secondWord? s with
    | some next => word ++ " " ++ next
    | none => word
  (i.fail s (.requirement (.ofWord word))).inMember member

/-- Reads one item of a protocol body. -/
def contractItem (contract : Contract) (t : Token) : Reader Contract := do
  let s ← get
  match t.kind with
  | .comment _ => do
    moveTo (s.pos + 1)
    return contract
  | .mark ';' => do
    moveTo (s.pos + 1)
    return contract
  | .mark '@' => do
    skipAttribute i
    return contract
  | .word w =>
    if modifiers.contains w then do
      skipModifier i
      return contract
    else if w = "func" then do
      let m ← method i
      return { contract with methods := contract.methods ++ [m] }
    else if w = "init" then do
      let m ← initializer i
      return { contract with initializers := contract.initializers ++ [m] }
    else throw (i.unclassifiable s w)
  | kind => throw (i.fail s (.unexpectedMember (some kind) .contract))

/-- Reads the body of a protocol. -/
def contractBody : Reader Contract :=
  itemsFrom i (contractItem i) (i.tokens.length + 1) {}

/-- What is known while a body with nested declarations is read. -/
structure Members (α : Type) where
  /-- The members read so far. -/
  members : α
  /-- The markers since the last member. -/
  markers : List String := []
  /-- Whether an attribute stands before the next member. -/
  attributed : Bool := false

/-- What is known behind a member, to which markers and attributes no longer apply. -/
def Members.afterMember {α : Type} (m : Members α) : Members α :=
  { m with markers := [], attributed := false }

/-- Whether the word after `class` makes it a modifier of a member. -/
def opensTypeMember (s : State) : Bool :=
  match i.secondWord? s with
  | some w => ["var", "let", "func", "subscript"].contains w
  | none => false

/-- Passes over a member. -/
def passOver {α : Type} (m : Members α) : Reader (Members α) := do
  skipStatement i
  return m.afterMember

/-- Keeps a member that was read together with its body; one that cannot be read is passed over from
its keyword on. -/
def keepMember {α : Type} (m : Members ValueType) (read : Reader α)
    (keep : ValueType → α → ValueType) : Reader (Members ValueType) := do
  let s ← get
  match ← attempt read with
  | .ok x => do
    skipBody i
    return { m with members := keep m.members x }.afterMember
  | .error _ => do
    moveTo s.pos
    passOver i m

/-- Reads the member of a value type that a word opens. -/
def valueMember (nested : Form → List String → Reader Unit) (m : Members ValueType)
    (word : String) : Reader (Members ValueType) := do
  let s ← get
  if Cursor.passedOver.contains word then passOver i m
  else if word = "class" && opensTypeMember i s then passOver i m
  else if word = "let" || word = "var" then
    if m.attributed then passOver i m
    else
      let field ← property i word
      let value := { m.members with fields := m.members.fields ++ field.toList }
      return { m with members := value }.afterMember
  else if word = "func" then
    keepMember i m (method i) fun v x => { v with methods := v.methods ++ [x] }
  else if word = "init" then
    keepMember i m (initializer i) fun v x => { v with initializers := v.initializers ++ [x] }
  else
    match Form.ofKeyword? word with
    | some form => do
      nested form m.markers
      return m.afterMember
    | none => throw ((i.fail s .unclassified).inMember word)

/-- Reads one item of the body of a value type. -/
def valueItem (markerPrefix : String) (nested : Form → List String → Reader Unit)
    (m : Members ValueType) (t : Token) : Reader (Members ValueType) := do
  let s ← get
  match t.kind with
  | .comment text => do
    moveTo (s.pos + 1)
    return { m with markers := m.markers ++ markersIn markerPrefix text }
  | .mark ';' => do
    moveTo (s.pos + 1)
    return m
  | .mark '@' => do
    skipAttribute i
    return { m with attributed := true }
  | .mark '#' => do
    skipStatement i
    return m
  | .word w =>
    if modifiers.contains w || implementationModifiers.contains w then do
      skipModifier i
      return m
    else valueMember i nested m w
  | kind => throw (i.fail s (.unexpectedMember (some kind) (.value m.members.form)))

/-- Reads the body of a value type. -/
def valueBody (markerPrefix : String) (nested : Form → List String → Reader Unit)
    (form : ValueForm) : Reader ValueType := do
  let m ← itemsFrom i (valueItem i markerPrefix nested) (i.tokens.length + 1)
    { members := { form := form } }
  return m.members

/-- Reads the member of an enumeration that a word opens. -/
def enumerationMember (nested : Form → List String → Reader Unit) (m : Members Enumeration)
    (word : String) : Reader (Members Enumeration) := do
  let s ← get
  if word = "case" then
    moveTo (s.pos + 1)
    let e ← cases i m.members
    return { m with members := e }.afterMember
  else if word = "class" && opensTypeMember i s then passOver i m
  else
    match Form.ofKeyword? word with
    | some form => do
      nested form m.markers
      return m.afterMember
    | none => passOver i m

/-- Reads one item of the body of an enumeration. -/
def enumerationItem (markerPrefix : String) (nested : Form → List String → Reader Unit)
    (m : Members Enumeration) (t : Token) : Reader (Members Enumeration) := do
  let s ← get
  match t.kind with
  | .comment text => do
    moveTo (s.pos + 1)
    return { m with markers := m.markers ++ markersIn markerPrefix text }
  | .mark ';' => do
    moveTo (s.pos + 1)
    return m
  | .mark '@' => do
    skipAttribute i
    return m
  | .word w =>
    if modifiers.contains w then do
      skipModifier i
      return m
    else enumerationMember i nested m w
  | kind => throw (i.fail s (.unexpectedMember (some kind) .enumeration))

/-- Reads the body of an enumeration. -/
def enumerationBody (markerPrefix : String) (nested : Form → List String → Reader Unit) :
    Reader Enumeration := do
  let m ← itemsFrom i (enumerationItem i markerPrefix nested) (i.tokens.length + 1)
    { members := {} }
  return m.members

end Readers

/-! ### Items one by one -/

section Items

variable {α : Type} {i : Input} {item : α → Token → Reader α} {fuel : Nat} {x : α} {s s' : State}
  {t : Token}

theorem run_get (s : State) : (get : Reader State).run.run s = some (.ok s, s) := rfl

theorem run_itemsFrom_of_none (hnext : i.next? s = none) :
    (itemsFrom i item (fuel + 1) x).run.run s = some (.ok x, s) := by
  rw [itemsFrom, run_bind_of_ok (run_get s)]
  simp only [hnext]
  rfl

theorem run_itemsFrom_of_ok {y : α} (hnext : i.next? s = some t)
    (hitem : (item x t).run.run s = some (.ok y, s')) :
    (itemsFrom i item (fuel + 1) x).run.run s = (itemsFrom i item fuel y).run.run s' := by
  rw [itemsFrom, run_bind_of_ok (run_get s)]
  simp only [hnext]
  exact run_bind_of_ok hitem

theorem run_itemsFrom_of_error {f : Failure} (hnext : i.next? s = some t)
    (hitem : (item x t).run.run s = some (.error f, s')) :
    (itemsFrom i item (fuel + 1) x).run.run s = some (.error f, s') := by
  rw [itemsFrom, run_bind_of_ok (run_get s)]
  simp only [hnext]
  exact run_bind_of_error hitem

end Items

/-! ### Protocols -/

section Contracts

variable {i : Input} {room least : Nat} {s : State} {c : Cursor} {t : Token}

theorem Stands.unclassifiable (h : Stands i room least s c) (word : String) :
    i.unclassifiable s word = c.unclassifiable word := by
  rw [Input.unclassifiable, h.secondWord?, h.fail]
  rfl

variable (hanchored : Anchored i.source i.tokens)

include hanchored

theorem follows_contractItem (contract : Contract) (h : Stands i room least s c)
    (hnext : c.next? = some t) :
    Follows Stops (Reaches i room (s.pos + 1)) s (contractItem i contract t)
      (c.contractItem i.source room contract t) := by
  have hsome : c.next?.isSome = true := by rw [hnext]; rfl
  have hadvance := (h.advance hsome).raise (Nat.le_refl _)
  refine .get ?_
  split
  · next text hkind =>
      simp only [Cursor.contractItem, hkind]
      exact .moveTo (.pure ⟨rfl, hadvance⟩)
  · next hkind =>
      simp only [Cursor.contractItem, hkind]
      exact .moveTo (.pure ⟨rfl, hadvance⟩)
  · next hkind =>
      simp only [Cursor.contractItem, hkind]
      exact (movesTo_skipAttribute h hsome).bind fun n hc => .pure ⟨rfl, hc⟩
  · next w hkind =>
      simp only [Cursor.contractItem, hkind]
      split
      · exact (movesTo_skipModifier h hsome).bind fun n hc => .pure ⟨rfl, hc⟩
      split
      · refine (follows_method hanchored h hsome).bind ?_
        rintro _ n ⟨m, c₁⟩ ⟨rfl, hc₁⟩
        exact .pure ⟨rfl, hc₁⟩
      split
      · refine (follows_initializer hanchored h hsome).bind ?_
        rintro _ n ⟨m, c₁⟩ ⟨rfl, hc₁⟩
        exact .pure ⟨rfl, hc₁⟩
      · rw [h.unclassifiable]
        exact .throw rfl
  · next hcomment hsemicolon hattribute hword =>
      rw [h.fail, Cursor.contractItem]
      split
      · next text hkind => exact absurd hkind (hcomment text)
      · next hkind => exact absurd hkind hsemicolon
      · next hkind => exact absurd hkind hattribute
      · next w hkind => exact absurd hkind (hword w)
      · exact .throw rfl

theorem follows_contractBodyFrom {fuel fuel' : Nat} (contract : Contract)
    (h : Stands i room least s c) (hfuel : s.stop < s.pos + fuel)
    (hfuel' : s.stop < s.pos + fuel') :
    Follows Stops (fun x _ y => y = x) s (itemsFrom i (contractItem i) fuel contract)
      (Cursor.contractBodyFrom i.source room fuel' contract c) := by
  have hstop := h.stop_eq
  induction fuel generalizing fuel' contract s c with
  | zero => omega
  | succ fuel ih =>
      obtain ⟨fuel', rfl⟩ : ∃ n, fuel' = n + 1 := ⟨fuel' - 1, by omega⟩
      refine .get ?_
      simp only [h.next?, Cursor.contractBodyFrom]
      cases hnext : c.next? with
      | none => exact .pure rfl
      | some t =>
          simp only
          rcases follows_contractItem hanchored contract h hnext with
            ⟨_, n, ⟨contract', c₁⟩, hrun, hr, rfl, hc₁⟩ | ⟨f, n, _, hrun, hr, rfl⟩
          · have hleast := hc₁.least
            simp only [State.pos_to] at hleast
            simp only [hr]
            exact .of_run hrun (ih contract' (hc₁.lower (Nat.le_succ_of_le h.least))
              (by simp; omega) (by simp; omega) hc₁.stop_eq)
          · simp only [hr]
            exact .inr ⟨f, n, _, run_bind_of_error hrun, rfl, rfl⟩

end Contracts

/-! ### Steps through bodies with nested declarations -/

/-- A reader of nested declarations follows another one from every place where a token is left. -/
def Declares (i : Input) (room : Nat) (nested : Form → List String → Reader Unit)
    (nested' : NestedReader) : Prop :=
  ∀ ⦃form : Form⦄ ⦃markers : List String⦄ ⦃least : Nat⦄ ⦃s : State⦄ ⦃c : Cursor⦄,
    Stands i room least s c → c.next?.isSome = true →
      ∃ o n c', (nested form markers).run.run s = some (.ok (), (s.to n).add o) ∧
        nested' form markers c = some (o, c') ∧ Stands i room (s.pos + 1) (s.to n) c'

/-- What a reader by places knows of a value type. -/
def Members.valueState (m : Members ValueType) (o : Outcome) : ValueState :=
  ⟨m.members, m.markers, m.attributed, o⟩

/-- What a reader by places knows of an enumeration. -/
def Members.enumerationState (m : Members Enumeration) (o : Outcome) : EnumerationState :=
  ⟨m.members, m.markers, o⟩

/-- A step through a body follows a step by places: what is known behind it is the same and the
position near the place to go on from, or both fail alike and nothing was added. -/
def StepsTo {α σ : Type} (state : Members α → Outcome → σ) (i : Input) (room : Nat)
    (m : Members α) (o : Outcome) (s : State) (x : Reader (Members α)) (r : BodyStep σ) : Prop :=
  (∃ m' o' n c, x.run.run s = some (.ok m', (s.to n).add o') ∧
    r = some (state m' (o ++ o'), .ok c) ∧ Nears i room (s.pos + 1) (s.to n) c) ∨
  ∃ f n, x.run.run s = some (.error f, s.to n) ∧ r = some (state m o, .error f)

/-- A reader of a body follows one by places: what is added to what was read so far is the same,
and so are the members or the failure. -/
def Yields {α β : Type} (view : α → β) (o : Outcome) (s : State) (x : Reader α)
    (r : BodyResult β) : Prop :=
  ∃ result o' n, x.run.run s = some (result, (s.to n).add o') ∧ r = some (o ++ o', result.map view)

/-- **Bodies of protocols are the same.** -/
theorem yields_contractBody {i : Input} {room least : Nat} {s : State} {c : Cursor}
    (hanchored : Anchored i.source i.tokens) (h : Stands i room least s c) :
    Yields id {} s (contractBody i) (c.contractBody i.source room) := by
  have hlength := h.stop_le
  have hbody : Follows Stops (fun x _ y => y = x) s (contractBody i)
      (Cursor.contractBodyFrom i.source room (c.rest.length + 1) {} c) :=
    follows_contractBodyFrom hanchored {} h (by omega) h.stop_lt_fuel
  rcases hbody with ⟨_, n, x, hrun, hr, rfl⟩ | ⟨f, n, _, hrun, hr, rfl⟩
  · refine ⟨.ok x, {}, n, by rw [State.add_empty, hrun], ?_⟩
    rw [Cursor.contractBody, hr]
    rfl
  · refine ⟨.error f, {}, n, by rw [State.add_empty, hrun], ?_⟩
    rw [Cursor.contractBody, hr]
    rfl

section Steps

variable {α σ : Type} {state : Members α → Outcome → σ} {i : Input} {room least : Nat}
  {m m' : Members α} {o : Outcome} {s : State} {c c' : Cursor}

theorem Yields.view {β γ : Type} {x : Reader β} {view : β → γ} {r : BodyResult γ}
    (h : Yields view o s x r) : Yields id o s (do let y ← x; return view y) r := by
  obtain ⟨result, o', n, hrun, rfl⟩ := h
  cases result with
  | ok y => exact ⟨.ok (view y), o', n, run_bind_of_ok hrun, rfl⟩
  | error f => exact ⟨.error f, o', n, run_bind_of_error hrun, rfl⟩

theorem StepsTo.stay {n : Nat} (h : Stands i room (s.pos + 1) (s.to n) c) :
    StepsTo state i room m o s (do moveTo n; return m') (some (state m' o, .ok c)) :=
  .inl ⟨m', {}, n, c, by rw [State.add_empty]; rfl, by rw [Outcome.append_empty], .inl h⟩

theorem MovesTo.steps {x : Reader Unit} (h : MovesTo i room (s.pos + 1) s x c) :
    StepsTo state i room m o s (do x; return m') (some (state m' o, .ok c)) := by
  obtain ⟨n, hrun, hc⟩ := h
  refine .inl ⟨m', {}, n, c, ?_, by rw [Outcome.append_empty], .inl hc⟩
  rw [run_bind_of_ok hrun, State.add_empty]
  rfl

theorem StepsTo.get {k : State → Reader (Members α)} {r : BodyStep σ}
    (h : StepsTo state i room m o s (k s) r) :
    StepsTo state i room m o s (MonadState.get >>= k) r := h

theorem StepsTo.fail {f : Failure} :
    StepsTo state i room m o s (throw f) (some (state m o, .error f)) :=
  .inr ⟨f, s.pos, rfl, rfl⟩

theorem Declares.steps {nested : Form → List String → Reader Unit} {nested' : NestedReader}
    (hnested : Declares i room nested nested') (h : Stands i room least s c)
    (hnext : c.next?.isSome = true) {form : Form} {markers : List String} {r : BodyStep σ}
    (hr : ∀ o' c', nested' form markers c = some (o', c') →
      r = some (state m' (o ++ o'), .ok c')) :
    StepsTo state i room m o s (do nested form markers; return m') r := by
  obtain ⟨o', n, c', hrun, hr', hc'⟩ := hnested h hnext
  exact .inl ⟨m', o', n, c', run_bind_of_ok hrun, hr o' c' hr', .inl hc'⟩

/-- Where a token was taken, less is left. -/
theorem Nears.length_lt {n : Nat} (hc' : Nears i room (s.pos + 1) (s.to n) c')
    (h : Stands i room least s c) (hnext : c.next?.isSome = true) :
    c'.rest.length < c.rest.length := by
  rcases hc' with hc' | ⟨hrest, -⟩
  · have hstop := h.stop_eq
    have hstop' := hc'.stop_eq
    have hleast := hc'.least
    rw [State.stop_to] at hstop'
    omega
  · obtain ⟨prev, rest⟩ := c
    cases rest with
    | nil => cases hnext
    | cons t ts => simp [hrest]

variable (state) in
/-- The items of a body yield the same if each of them does. -/
theorem yields_itemsFrom {β : Type} {item : Members α → Token → Reader (Members α)}
    (item' : σ → Token → Cursor → BodyStep σ) (body' : Nat → σ → Cursor → BodyResult β)
    {view : Members α → β}
    (hitem : ∀ (m : Members α) o ⦃least s c t⦄, Stands i room least s c → c.next? = some t →
      StepsTo state i room m o s (item m t) (item' (state m o) t c))
    (hdone : ∀ fuel m o c, c.next? = none →
      body' (fuel + 1) (state m o) c = some (o, .ok (view m)))
    (hstep : ∀ fuel x y t c c', c.next? = some t → item' x t c = some (y, .ok c') →
      body' (fuel + 1) x c = body' fuel y c')
    (hfail : ∀ fuel x m o t c f, c.next? = some t → item' x t c = some (state m o, .error f) →
      body' (fuel + 1) x c = some (o, .error f))
    {fuel fuel' : Nat} (m : Members α) (o : Outcome) (h : Nears i room least s c)
    (hfuel : c.rest.length < fuel) (hfuel' : c.rest.length < fuel') :
    Yields view o s (itemsFrom i item fuel m) (body' fuel' (state m o) c) := by
  induction fuel generalizing fuel' m o least s c with
  | zero => cases hfuel
  | succ fuel ih =>
      obtain ⟨fuel', rfl⟩ : ∃ n, fuel' = n + 1 := ⟨fuel' - 1, by omega⟩
      have hget := h.next?
      cases hnext : c.next? with
      | none =>
          rw [hnext] at hget
          refine ⟨.ok m, {}, s.pos, ?_, ?_⟩
          · rw [run_itemsFrom_of_none hget, State.add_empty, State.to_pos]
          · rw [hdone _ _ _ _ hnext, Outcome.append_empty]
            rfl
      | some t =>
          rw [hnext] at hget
          have hsome : c.next?.isSome = true := by rw [hnext]; rfl
          have hstands := h.stands hsome
          rcases hitem m o hstands hnext with
            ⟨m', o', n, c', hrun, hr, hc'⟩ | ⟨f, n, hrun, hr⟩
          · have hlength := hc'.length_lt hstands hsome
            have hfewer : c'.rest.length < fuel' := by omega
            obtain ⟨result, o'', k, hrun', hr'⟩ :=
              ih m' (o ++ o') (hc'.add o') (by omega) hfewer
            refine ⟨result, o' ++ o'', k, ?_, ?_⟩
            · rw [run_itemsFrom_of_ok hget hrun, hrun', State.add_to, State.to_to, State.add_add]
            · rw [hstep _ _ _ _ _ _ hnext hr, hr', Outcome.append_assoc]
          · refine ⟨.error f, {}, n, ?_, ?_⟩
            · rw [run_itemsFrom_of_error hget hrun, State.add_empty]
            · rw [hfail _ _ _ _ _ _ _ hnext hr, Outcome.append_empty]
              rfl

end Steps

/-! ### Structs, classes and actors -/

theorem Stands.opensTypeMember {i : Input} {room least : Nat} {s : State} {c : Cursor}
    (h : Stands i room least s c) : Checked.opensTypeMember i s = c.opensTypeMember := by
  rw [Checked.opensTypeMember, h.secondWord?]
  rfl

section Values

variable {i : Input} {room least : Nat} {s : State} {c : Cursor} {t : Token}

theorem StepsTo.keepMember {α : Type} {m : Members ValueType} {o : Outcome}
    (h : Stands i room least s c) (hnext : c.next?.isSome = true) {read : Reader α}
    {read' : Except Halt (α × Cursor)}
    (hread : Follows Stops (Reaches i room (s.pos + 1)) s read read')
    (keep : ValueType → α → ValueType) :
    StepsTo Members.valueState i room m o s (Checked.keepMember i m read keep)
      (Cursor.memberStep (m.valueState o) c read' keep) := by
  rcases hread with ⟨_, n, ⟨x, c₁⟩, hrun, rfl, rfl, hc₁⟩ | ⟨f, n, _, hrun, rfl, rfl⟩
  · obtain ⟨k, hrun', hc₂⟩ := movesTo_skipBody hc₁
    refine .inl ⟨{ m with members := keep m.members x }.afterMember, {}, k, c₁.skipBody, ?_,
      by rw [Outcome.append_empty]; rfl, .inl hc₂⟩
    rw [Checked.keepMember, run_bind_of_ok (run_get s), run_bind_of_ok (run_attempt hrun)]
    simp only
    rw [run_bind_of_ok hrun', State.add_empty]
    rfl
  · obtain ⟨k, hrun', hc₂⟩ := movesTo_skipStatement_of_next? h hnext
    refine .inl ⟨m.afterMember, {}, k, c.skipStatement, ?_,
      by rw [Outcome.append_empty]; rfl, .inl hc₂⟩
    have hback : (moveTo s.pos : Reader Unit).run.run (s.to n) = some (.ok (), s) := rfl
    rw [Checked.keepMember, run_bind_of_ok (run_get s), run_bind_of_ok (run_attempt hrun)]
    simp only
    rw [run_bind_of_ok hback, passOver, run_bind_of_ok hrun', State.add_empty]
    rfl

variable (hanchored : Anchored i.source i.tokens) {nested : Form → List String → Reader Unit}
  {nested' : NestedReader} (hnested : Declares i room nested nested')

include hanchored hnested

theorem stepsTo_valueMember (m : Members ValueType) (o : Outcome) (word : String)
    (h : Stands i room least s c) (hnext : c.next?.isSome = true) :
    StepsTo Members.valueState i room m o s (valueMember i nested m word)
      (c.valueMember i.source room nested' (m.valueState o) word) := by
  have hskip : StepsTo Members.valueState i room m o s (passOver i m)
      (some ((m.valueState o).afterMember, .ok c.skipStatement)) :=
    (movesTo_skipStatement_of_next? h hnext).steps
  refine .get ?_
  rw [Cursor.valueMember, h.opensTypeMember]
  split
  · exact hskip
  split
  · exact hskip
  split
  · change StepsTo _ _ _ _ _ _ (if m.attributed then _ else _) (if m.attributed then _ else _)
    split
    · exact hskip
    · rcases follows_property hanchored h hnext word with
        ⟨_, n, ⟨field, c₁⟩, hrun, hr, rfl, hc₁⟩ | ⟨f, n, _, hrun, hr, rfl⟩
      · let value := { m.members with fields := m.members.fields ++ field.toList }
        refine .inl ⟨{ m with members := value }.afterMember, {}, n, c₁, ?_, ?_, .inl hc₁⟩
        · rw [run_bind_of_ok hrun, State.add_empty]
          rfl
        · rw [hr, Outcome.append_empty]
          rfl
      · exact .inr ⟨f, n, run_bind_of_error hrun, by rw [hr]⟩
  split
  · exact .keepMember h hnext (follows_method hanchored h hnext) _
  split
  · exact .keepMember h hnext (follows_initializer hanchored h hnext) _
  cases hform : Form.ofKeyword? word with
  | some form =>
      refine hnested.steps h hnext ?_
      intro o' c' hr
      simp only
      rw [Members.valueState, hr]
      rfl
  | none =>
      rw [h.fail]
      exact .fail

theorem stepsTo_valueItem (markerPrefix : String) (m : Members ValueType) (o : Outcome)
    (h : Stands i room least s c) (hnext : c.next? = some t) :
    StepsTo Members.valueState i room m o s (valueItem i markerPrefix nested m t)
      (c.valueItem i.source markerPrefix room nested' (m.valueState o) t) := by
  have hsome : c.next?.isSome = true := by rw [hnext]; rfl
  have hadvance := (h.advance hsome).raise (Nat.le_refl _)
  refine .get ?_
  split
  · next text hkind =>
      simp only [Cursor.valueItem, hkind]
      exact .stay hadvance
  · next hkind =>
      simp only [Cursor.valueItem, hkind]
      exact .stay hadvance
  · next hkind =>
      simp only [Cursor.valueItem, hkind]
      exact (movesTo_skipAttribute h hsome).steps
  · next hkind =>
      simp only [Cursor.valueItem, hkind]
      exact (movesTo_skipStatement_of_next? h hsome).steps
  · next w hkind =>
      simp only [Cursor.valueItem, hkind]
      split
      · exact (movesTo_skipModifier h hsome).steps
      · exact stepsTo_valueMember hanchored hnested m o w h hsome
  · next hcomment hsemicolon hattribute hdirective hword =>
      rw [h.fail, Cursor.valueItem]
      split
      · next text hkind => exact absurd hkind (hcomment text)
      · next hkind => exact absurd hkind hsemicolon
      · next hkind => exact absurd hkind hattribute
      · next hkind => exact absurd hkind hdirective
      · next w hkind => exact absurd hkind (hword w)
      · exact .fail

/-- **Bodies of value types are the same**, and so is what nested declarations yield. -/
theorem yields_valueBody (markerPrefix : String) (form : ValueForm) (h : Stands i room least s c) :
    Yields id {} s (valueBody i markerPrefix nested form)
      (c.valueBody i.source markerPrefix room nested' form) := by
  refine (yields_itemsFrom Members.valueState
    (Cursor.valueItem i.source markerPrefix room nested')
    (Cursor.valueBodyFrom i.source markerPrefix room nested')
    (fun m o _ _ _ _ h => stepsTo_valueItem hanchored hnested markerPrefix m o h)
    ?_ ?_ ?_ _ {} (.inl h) h.length_lt (Nat.lt_succ_self _)).view
  · intro fuel m o c hnext
    simp only [Cursor.valueBodyFrom, hnext]
    rfl
  · intro fuel x y t c c' hnext hitem
    simp only [Cursor.valueBodyFrom, hnext, hitem]
  · intro fuel x m o t c f hnext hitem
    simp only [Cursor.valueBodyFrom, hnext, hitem]
    rfl

end Values

/-! ### Enumerations -/

section Enumerations

variable {i : Input} {room least : Nat} {s : State} {c : Cursor} {t : Token}
  {nested : Form → List String → Reader Unit} {nested' : NestedReader}
  (hnested : Declares i room nested nested')

include hnested

theorem stepsTo_enumerationMember (m : Members Enumeration) (o : Outcome) (word : String)
    (h : Stands i room least s c) (hnext : c.next?.isSome = true) :
    StepsTo Members.enumerationState i room m o s (enumerationMember i nested m word)
      (c.enumerationMember nested' (m.enumerationState o) word) := by
  have hskip : StepsTo Members.enumerationState i room m o s (passOver i m)
      (some ((m.enumerationState o).afterMember, .ok c.skipStatement)) :=
    (movesTo_skipStatement_of_next? h hnext).steps
  refine .get ?_
  rw [Cursor.enumerationMember, h.opensTypeMember]
  split
  · have hcases := follows_cases m.members ((h.advance hnext).raise (Nat.le_refl _))
    have hmove : (moveTo (s.pos + 1) : Reader Unit).run.run s =
        some (.ok (), s.to (s.pos + 1)) := rfl
    rcases hcases with ⟨_, n, ⟨e, c₁⟩, hrun, hr, rfl, hc₁⟩ | ⟨f, n, _, hrun, hr, rfl⟩
    · refine .inl ⟨{ m with members := e }.afterMember, {}, n, c₁, ?_, ?_, hc₁⟩
      · rw [run_bind_of_ok hmove, run_bind_of_ok hrun, State.add_empty]
        rfl
      · rw [Members.enumerationState, hr, Outcome.append_empty]
        rfl
    · refine .inr ⟨f, n, ?_, ?_⟩
      · rw [run_bind_of_ok hmove, run_bind_of_error hrun]
        rfl
      · rw [Members.enumerationState, hr]
  split
  · exact hskip
  cases hform : Form.ofKeyword? word with
  | some form =>
      refine hnested.steps h hnext ?_
      intro o' c' hr
      simp only
      rw [Members.enumerationState, hr]
      rfl
  | none => exact hskip

theorem stepsTo_enumerationItem (markerPrefix : String) (m : Members Enumeration) (o : Outcome)
    (h : Stands i room least s c) (hnext : c.next? = some t) :
    StepsTo Members.enumerationState i room m o s (enumerationItem i markerPrefix nested m t)
      (c.enumerationItem markerPrefix nested' (m.enumerationState o) t) := by
  have hsome : c.next?.isSome = true := by rw [hnext]; rfl
  have hadvance := (h.advance hsome).raise (Nat.le_refl _)
  refine .get ?_
  split
  · next text hkind =>
      simp only [Cursor.enumerationItem, hkind]
      exact .stay hadvance
  · next hkind =>
      simp only [Cursor.enumerationItem, hkind]
      exact .stay hadvance
  · next hkind =>
      simp only [Cursor.enumerationItem, hkind]
      exact (movesTo_skipAttribute h hsome).steps
  · next w hkind =>
      simp only [Cursor.enumerationItem, hkind]
      split
      · exact (movesTo_skipModifier h hsome).steps
      · exact stepsTo_enumerationMember hnested m o w h hsome
  · next hcomment hsemicolon hattribute hword =>
      rw [h.fail, Cursor.enumerationItem]
      split
      · next text hkind => exact absurd hkind (hcomment text)
      · next hkind => exact absurd hkind hsemicolon
      · next hkind => exact absurd hkind hattribute
      · next w hkind => exact absurd hkind (hword w)
      · exact .fail

/-- **Bodies of enumerations are the same**, and so is what nested declarations yield. -/
theorem yields_enumerationBody (markerPrefix : String) (h : Stands i room least s c) :
    Yields id {} s (enumerationBody i markerPrefix nested)
      (c.enumerationBody markerPrefix nested') := by
  refine (yields_itemsFrom Members.enumerationState
    (Cursor.enumerationItem markerPrefix nested')
    (Cursor.enumerationBodyFrom markerPrefix nested')
    (fun m o _ _ _ _ h => stepsTo_enumerationItem hnested markerPrefix m o h)
    ?_ ?_ ?_ _ {} (.inl h) h.length_lt (Nat.lt_succ_self _)).view
  · intro fuel m o c hnext
    simp only [Cursor.enumerationBodyFrom, hnext]
    rfl
  · intro fuel x y t c c' hnext hitem
    simp only [Cursor.enumerationBodyFrom, hnext, hitem]
  · intro fuel x m o t c f hnext hitem
    simp only [Cursor.enumerationBodyFrom, hnext, hitem]
    rfl

end Enumerations

end Scaffold.Checked
