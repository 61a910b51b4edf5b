import HttpGarden.Hpack.DynamicTable
import HttpGarden.Lib.Method

/-!
# HttpGarden.Hpack.Rollback

**What an exception leaves of an `HPACKState`.** The methods are modelled once more, on an object
that keeps the changes made before an exception, and a run goes on after a call that has raised.

`update_table_capacity` stores the new capacity before it is checked, so a resize that is refused
leaves a capacity outside of its range. Nothing else leaves the object out of bounds: `intact_iff`.
-/

namespace HttpGarden.Hpack

open Lib Lib.Method

namespace HPACKState

/-! ### The methods on an object -/

namespace InPlace

/-- `maybe_evict_from_table` -/
def maybeEvictFromTable : Method PyError HPACKState Unit := fun self =>
  if self.tableSize > self.tableCapacity then
    match _h : self.dynamicTable with
    | [] => .error (.indexError "pop from an empty deque") self
    | h :: t => maybeEvictFromTable { self with dynamicTable := (h :: t).dropLast }
  else .ok () self
termination_by self => self.dynamicTable.length
decreasing_by
  rw [_h, List.length_dropLast]
  exact Nat.lt_succ_self _

def addHeaderToDynamicTable (header : Header) : Method PyError HPACKState Unit := do
  modify fun self => { self with dynamicTable := header :: self.dynamicTable }
  maybeEvictFromTable

def updateTableCapacity (val : Int) : Method PyError HPACKState Unit := do
  modify fun self => { self with tableCapacity := val }
  maybeEvictFromTable
  raising (← get).postInit

/-- The body of the loop in `process_field_block`; the headers so far are a local variable. -/
def processField (result : List Header) (field : HPACKField) :
    Method PyError HPACKState (List Header) := do
  match field with
  | .indexed index => return result ++ [← raising ((← get).getHeader index.val)]
  | .literal key val prop =>
    let header := (key.data, val.data)
    if prop = .cached then
      addHeaderToDynamicTable header
    return result ++ [header]
  | .partialIndexed prop index val =>
    let result := result ++ [(← raising ((← get).getHeaderName index.val), val.data)]
    if prop = .cached then
      addHeaderToDynamicTable (← raising ((← get).getHeaderName index.val), val.data)
    return result
  | .dynamicTableSizeUpdate size =>
    updateTableCapacity size.val
    return result

/-- `process_field_block` -/
def processFieldBlock (fieldBlock : List HPACKField) : Method PyError HPACKState (List Header) :=
  fieldBlock.foldlM processField []

end InPlace

/-! ### Calls that return -/

theorem outcome_maybeEvictFromTable (st : HPACKState) :
    outcome (InPlace.maybeEvictFromTable st) = st.maybeEvictFromTable.map (·, ()) := by
  induction st using maybeEvictFromTable.induct with
  | case1 st h hnil =>
      obtain ⟨c, m, l⟩ := st
      subst hnil
      rw [InPlace.maybeEvictFromTable, maybeEvictFromTable, if_pos h, if_pos h]
      rfl
  | case2 st h header t hcons ih =>
      obtain ⟨c, m, l⟩ := st
      subst hcons
      rw [InPlace.maybeEvictFromTable, maybeEvictFromTable, if_pos h, if_pos h]
      exact ih
  | case3 st h =>
      rw [InPlace.maybeEvictFromTable, maybeEvictFromTable, if_neg h, if_neg h]
      rfl

theorem outcome_addHeaderToDynamicTable (header : Header) (st : HPACKState) :
    outcome (InPlace.addHeaderToDynamicTable header st) =
      (st.addHeaderToDynamicTable header).map (·, ()) := by
  unfold InPlace.addHeaderToDynamicTable
  rw [outcome_bind, outcome_modify, ok_bind, outcome_maybeEvictFromTable]
  rfl

theorem outcome_updateTableCapacity (val : Int) (st : HPACKState) :
    outcome (InPlace.updateTableCapacity val st) =
      (st.updateTableCapacity val).map (·, ()) := by
  unfold InPlace.updateTableCapacity updateTableCapacity
  rw [outcome_bind, outcome_modify, ok_bind, outcome_bind, outcome_maybeEvictFromTable]
  cases maybeEvictFromTable { st with tableCapacity := val } with
  | error e => rfl
  | ok st' =>
      simp only [Except.map, ok_bind, outcome_bind, outcome_get, outcome_raising]
      cases st'.postInit <;> rfl

theorem outcome_processField (result : List Header) (field : HPACKField) (st : HPACKState) :
    outcome (InPlace.processField result field st) = processField (st, result) field := by
  cases field with
  | indexed index =>
      simp only [InPlace.processField, processField, outcome_bind, outcome_get, ok_bind,
        outcome_raising, outcome_pure, bind_assoc, pure_eq_ok]
  | literal key val prop =>
      by_cases h : prop = .cached
      · simp only [InPlace.processField, processField, h, if_true, outcome_bind,
          outcome_addHeaderToDynamicTable, outcome_pure, pure_eq_ok]
        cases st.addHeaderToDynamicTable (key.data, val.data) <;> rfl
      · simp only [InPlace.processField, processField, h, if_false]
        rfl
  | partialIndexed prop index val =>
      simp only [InPlace.processField, processField, outcome_bind, outcome_get, ok_bind,
        outcome_raising, bind_assoc]
      cases hname : st.getHeaderName index.val with
      | error e => rfl
      | ok name =>
          by_cases h : prop = .cached
          · simp only [h, if_true, outcome_bind, ok_bind, outcome_get, outcome_raising, hname,
              outcome_addHeaderToDynamicTable, outcome_pure, pure_eq_ok]
            cases st.addHeaderToDynamicTable (name, val.data) <;> rfl
          · simp only [h, if_false, ok_bind]
            rfl
  | dynamicTableSizeUpdate size =>
      simp only [InPlace.processField, processField, outcome_bind, outcome_updateTableCapacity,
        outcome_pure, pure_eq_ok]
      cases st.updateTableCapacity size.val <;> rfl

theorem outcome_processFieldBlock (fields : List HPACKField) (st : HPACKState) :
    outcome (InPlace.processFieldBlock fields st) = st.processFieldBlock fields := by
  unfold InPlace.processFieldBlock processFieldBlock
  generalize ([] : List Header) = result
  induction fields generalizing st result with
  | nil => rfl
  | cons field fields ih =>
      rw [List.foldlM_cons, List.foldlM_cons, outcome_bind, outcome_processField]
      cases processField (st, result) field with
      | error e => rfl
      | ok m => exact ih m.1 m.2

/-! ### Calls that raise -/

/-- The capacity is `c` and its bound is `m`. -/
def HasBounds (c m : Int) (st : HPACKState) : Prop :=
  st.tableCapacity = c ∧ st.maxTableCapacity = m

theorem hasBounds_maybeEvictFromTable {c m : Int} {st : HPACKState} (h : HasBounds c m st) :
    HasBounds c m (after (InPlace.maybeEvictFromTable st)) := by
  induction st using maybeEvictFromTable.induct with
  | case1 st hlarge hnil =>
      obtain ⟨c', m', l⟩ := st
      subst hnil
      rw [InPlace.maybeEvictFromTable, if_pos hlarge]
      exact h
  | case2 st hlarge header t hcons ih =>
      obtain ⟨c', m', l⟩ := st
      subst hcons
      rw [InPlace.maybeEvictFromTable, if_pos hlarge]
      exact ih h
  | case3 st hfits =>
      rw [InPlace.maybeEvictFromTable, if_neg hfits]
      exact h

/-- The new capacity is there, whatever comes of the call. -/
theorem hasBounds_updateTableCapacity (val : Int) (st : HPACKState) :
    HasBounds val st.maxTableCapacity (after (InPlace.updateTableCapacity val st)) := by
  have hmodify : HasBounds val st.maxTableCapacity { st with tableCapacity := val } := ⟨rfl, rfl⟩
  refine after_bind (P := HasBounds val st.maxTableCapacity) hmodify fun _ s hs => ?_
  refine after_bind (hasBounds_maybeEvictFromTable hs) fun _ s' hs' => ?_
  rw [get_bind, after_raising]
  exact hs'

/-- The condition of the assertion in `__post_init__`. -/
def WithinBounds (st : HPACKState) : Prop :=
  0 ≤ (st.tableSize : Int) ∧ st.tableSize ≤ st.tableCapacity ∧
    st.tableCapacity ≤ st.maxTableCapacity

theorem withinBounds_iff {st : HPACKState} : st.WithinBounds ↔ ∃ t : Table, t.state = st := by
  rw [← postInit_eq_ok, postInit]
  split
  · next h => exact iff_of_true h rfl
  · next h => exact iff_of_false h fun herror => by cases herror

theorem withinBounds_state (t : Table) : t.state.WithinBounds := withinBounds_iff.mpr ⟨t, rfl⟩

/-- A refused capacity is out of bounds. -/
theorem not_withinBounds_of_resize {t : Table} {val : Int} {st : HPACKState}
    (hresize : t.resize val = none) (h : HasBounds val t.maxCapacity st) : ¬ st.WithinBounds := by
  intro hbounds
  obtain ⟨h0, hfits, hmax⟩ := hbounds
  rw [h.1] at hfits
  rw [h.1, h.2] at hmax
  unfold Table.resize at hresize
  rw [dif_pos ⟨by omega, hmax⟩] at hresize
  cases hresize

/-! ### Fields -/

theorem inPlace_processField_of_some {t t' : Table} {result headers : List Header}
    {field : HPACKField} (h : t.decodeField field = some (t', headers)) :
    InPlace.processField result field t.state = .ok (result ++ headers) t'.state := by
  rw [← outcome_eq_ok, outcome_processField, processField_state]
  exact ⟨t', headers, h, rfl, rfl⟩

/-- **A field that is refused** leaves the object as it was, or with the capacity that is refused. -/
theorem inPlace_processField_of_none {t : Table} {field : HPACKField}
    (h : t.decodeField field = none) (result : List Header) :
    ∃ e st, InPlace.processField result field t.state = .error e st ∧
      (st.WithinBounds ↔ ∀ size, field ≠ .dynamicTableSizeUpdate size) := by
  cases hrun : InPlace.processField result field t.state with
  | ok result' st =>
      have hok := outcome_processField result field t.state
      rw [hrun] at hok
      obtain ⟨t', headers, hsome, -⟩ := processField_state.mp hok.symm
      rw [h] at hsome
      cases hsome
  | error e st =>
      refine ⟨e, st, rfl, ?_⟩
      cases field with
      | literal key val prop => cases h
      | indexed index =>
          cases hget : t.state.getHeader index.val with
          | ok header =>
              rw [Table.decodeField, getHeader_state.mp hget] at h
              cases h
          | error e' =>
              simp only [InPlace.processField, get_bind, hget] at hrun
              cases hrun
              exact iff_of_true (withinBounds_state t) fun _ => HPACKField.noConfusion
      | partialIndexed prop index val =>
          cases hget : t.state.getHeaderName index.val with
          | ok name =>
              obtain ⟨entry, hlookup, -⟩ := getHeaderName_state.mp hget
              rw [Table.decodeField, hlookup] at h
              cases h
          | error e' =>
              simp only [InPlace.processField, get_bind, hget] at hrun
              cases hrun
              exact iff_of_true (withinBounds_state t) fun _ => HPACKField.noConfusion
      | dynamicTableSizeUpdate size =>
          have hbounds : HasBounds size.val t.maxCapacity
              (after (InPlace.processField result (.dynamicTableSizeUpdate size) t.state)) :=
            after_bind (hasBounds_updateTableCapacity size.val t.state) fun _ _ hs => hs
          rw [hrun] at hbounds
          have hresize : t.resize size.val = none := Option.map_eq_none_iff.mp h
          exact iff_of_false (not_withinBounds_of_resize hresize hbounds) fun hne => hne size rfl

end HPACKState

/-! ### Blocks and calls -/

/-- Among the fields is a size update that the table, as it is by then, refuses. -/
def Table.RefusesIn (t : Table) (fields : List HPACKField) : Prop :=
  ∃ pre size post t' headers, fields = pre ++ .dynamicTableSizeUpdate size :: post ∧
    t.decode pre = some (t', headers) ∧ t'.resize size.val = none

/-- The call gets to a resize that is refused. -/
def Table.Refuses (t : Table) : Call → Prop
  | .processFieldBlock fieldBlock => t.RefusesIn fieldBlock
  | .addHeaderToDynamicTable _ => False
  | .updateTableCapacity val => t.resize val = none

theorem refusesIn_cons_of_some {t t₁ : Table} {headers₁ : List Header} {field : HPACKField}
    (h : t.decodeField field = some (t₁, headers₁)) (fields : List HPACKField) :
    t.RefusesIn (field :: fields) ↔ t₁.RefusesIn fields := by
  constructor
  · intro hrefuses
    obtain ⟨pre, size, post, t', headers, hfields, hdecode, hresize⟩ := hrefuses
    cases pre with
    | nil =>
        cases hfields
        cases hdecode
        rw [Table.decodeField, hresize] at h
        cases h
    | cons field' pre =>
        cases hfields
        obtain ⟨m, hm, hdecode⟩ := Option.bind_eq_some_iff.mp hdecode
        obtain ⟨m', hm', hpair⟩ := Option.bind_eq_some_iff.mp hdecode
        rw [h] at hm
        cases hm
        cases hpair
        exact ⟨pre, size, post, m'.1, m'.2, rfl, hm', hresize⟩
  · intro hrefuses
    obtain ⟨pre, size, post, t', headers, hfields, hdecode, hresize⟩ := hrefuses
    refine ⟨field :: pre, size, post, t', headers₁ ++ headers, by rw [hfields]; rfl, ?_, hresize⟩
    exact Option.bind_eq_some_iff.mpr ⟨(t₁, headers₁), h,
      Option.bind_eq_some_iff.mpr ⟨(t', headers), hdecode, rfl⟩⟩

theorem refusesIn_cons_of_none {t : Table} {field : HPACKField} (h : t.decodeField field = none)
    (fields : List HPACKField) :
    t.RefusesIn (field :: fields) ↔ ∃ size, field = .dynamicTableSizeUpdate size := by
  constructor
  · intro hrefuses
    obtain ⟨pre, size, post, t', headers, hfields, hdecode, -⟩ := hrefuses
    cases pre with
    | nil =>
        cases hfields
        exact ⟨size, rfl⟩
    | cons field' pre =>
        cases hfields
        obtain ⟨m, hm, -⟩ := Option.bind_eq_some_iff.mp hdecode
        rw [h] at hm
        cases hm
  · intro hupdate
    obtain ⟨size, rfl⟩ := hupdate
    exact ⟨[], size, fields, t, [], rfl, rfl, Option.map_eq_none_iff.mp h⟩

namespace HPACKState

/-- The methods that the calls stand for. -/
def callInPlace : Call → Method PyError HPACKState (List Header)
  | .processFieldBlock fieldBlock => InPlace.processFieldBlock fieldBlock
  | .addHeaderToDynamicTable header => do
    InPlace.addHeaderToDynamicTable header
    return []
  | .updateTableCapacity val => do
    InPlace.updateTableCapacity val
    return []

/-- A call that returns is one of the runs without exceptions. -/
theorem outcome_callInPlace (c : Call) (st : HPACKState) :
    outcome (callInPlace c st) = st.call c := by
  cases c with
  | processFieldBlock fieldBlock => exact outcome_processFieldBlock fieldBlock st
  | addHeaderToDynamicTable header =>
      simp only [callInPlace, call, outcome_bind, outcome_addHeaderToDynamicTable, outcome_pure,
        pure_eq_ok]
      cases st.addHeaderToDynamicTable header <;> rfl
  | updateTableCapacity val =>
      simp only [callInPlace, call, outcome_bind, outcome_updateTableCapacity, outcome_pure,
        pure_eq_ok]
      cases st.updateTableCapacity val <;> rfl

theorem withinBounds_foldlM_iff (fields : List HPACKField) (result : List Header) (t : Table) :
    (after (fields.foldlM InPlace.processField result t.state)).WithinBounds ↔
      ¬ t.RefusesIn fields := by
  induction fields generalizing result t with
  | nil =>
      refine iff_of_true (withinBounds_state t) fun hrefuses => ?_
      obtain ⟨pre, size, post, t', headers, hfields, -⟩ := hrefuses
      simp at hfields
  | cons field fields ih =>
      rw [List.foldlM_cons]
      cases hdecode : t.decodeField field with
      | some m =>
          obtain ⟨t₁, headers₁⟩ := m
          rw [bind_of_ok (inPlace_processField_of_some hdecode), refusesIn_cons_of_some hdecode]
          exact ih _ t₁
      | none =>
          obtain ⟨e, st, hrun, hbounds⟩ := inPlace_processField_of_none hdecode result
          rw [bind_of_error hrun, refusesIn_cons_of_none hdecode, not_exists]
          exact hbounds

/-- What should hold of a call: an update that fails leaves the object as it was, and every call
leaves it within the bounds. -/
def Intact (st : HPACKState) (c : Call) : Prop :=
  (∀ val e st', c = .updateTableCapacity val → callInPlace c st = .error e st' →
    st'.tableCapacity = st.tableCapacity ∧ st'.dynamicTable = st.dynamicTable) ∧
  (after (callInPlace c st)).WithinBounds

/-- A call that the table answers returns, and leaves the table that is reached. -/
theorem intact_of_call {t t' : Table} {c : Call} {out : List Header}
    (h : t.call c = some (t', out)) : Intact t.state c := by
  have hok : callInPlace c t.state = .ok out t'.state := by
    rw [← outcome_eq_ok, outcome_callInPlace, call_state]
    exact ⟨t', h, rfl⟩
  refine ⟨fun val e st' _ herror => ?_, ?_⟩
  · rw [hok] at herror
    cases herror
  · rw [hok]
    exact withinBounds_state t'

theorem intact_state_iff (t : Table) (c : Call) : Intact t.state c ↔ ¬ t.Refuses c := by
  cases c with
  | processFieldBlock fields =>
      refine (and_iff_right ?_).trans (withinBounds_foldlM_iff fields [] t)
      exact fun val e st' h => by cases h
  | addHeaderToDynamicTable header => exact iff_of_true (intact_of_call rfl) id
  | updateTableCapacity val =>
      cases hresize : t.resize val with
      | some t' =>
          refine iff_of_true (intact_of_call (Option.map_eq_some_iff.mpr ⟨t', hresize, rfl⟩)) ?_
          intro hnone
          rw [Table.Refuses, hresize] at hnone
          cases hnone
      | none =>
          have hbounds : HasBounds val t.maxCapacity
              (after (callInPlace (.updateTableCapacity val) t.state)) :=
            after_bind (hasBounds_updateTableCapacity val t.state) fun _ _ hs => hs
          exact iff_of_false (fun h => not_withinBounds_of_resize hresize hbounds h.2)
            (not_not.mpr hresize)

/-! ### Runs -/

/-- The states that calls lead to, returned or raised, if all of them are as `P` says. -/
inductive Reached (P : HPACKState → Call → Prop) (st₀ : HPACKState) : HPACKState → Prop
  | init : Reached P st₀ st₀
  | call {st : HPACKState} {c : Call} (h : Reached P st₀ st) (hc : P st c) :
      Reached P st₀ (after (callInPlace c st))

/-- The call gets to a resize that is refused, from below zero or above the maximum. -/
def Refuses (st : HPACKState) (c : Call) : Prop := ∃ t : Table, t.state = st ∧ t.Refuses c

theorem intact_iff_of_withinBounds {st : HPACKState} (h : st.WithinBounds) (c : Call) :
    Intact st c ↔ ¬ Refuses st c := by
  obtain ⟨t, rfl⟩ := withinBounds_iff.mp h
  rw [intact_state_iff, not_iff_not]
  refine ⟨fun hrefuses => ⟨t, rfl, hrefuses⟩, fun hrefuses => ?_⟩
  obtain ⟨t', ht', hrefuses⟩ := hrefuses
  rwa [Table.state_injective ht'] at hrefuses

/-- **The object is intact** as long as no call gets to a resize that is refused, and no longer. -/
theorem intact_iff {st₀ st : HPACKState} (h₀ : st₀.postInit = .ok ())
    (h : Reached (fun st c => ¬ Refuses st c) st₀ st) (c : Call) :
    st.WithinBounds ∧ (Intact st c ↔ ¬ Refuses st c) := by
  have hbounds : st.WithinBounds := by
    induction h with
    | init => exact withinBounds_iff.mpr (postInit_eq_ok.mp h₀)
    | call _ hc ih => exact ((intact_iff_of_withinBounds ih _).mpr hc).2
  exact ⟨hbounds, intact_iff_of_withinBounds hbounds c⟩

/-- A resize to nothing, after an index that stands for no header. -/
theorem intact_iff_emptied :
    let st₀ : HPACKState := {}
    let st := after (callInPlace (.processFieldBlock [.indexed ⟨62, 0⟩]) st₀)
    st.WithinBounds ∧ (Intact st (.updateTableCapacity 0) ↔ ¬ Refuses st (.updateTableCapacity 0)) := by
  have hnone : ¬ Refuses {} (.processFieldBlock [.indexed ⟨62, 0⟩]) := by
    intro h
    obtain ⟨t, -, pre, size, post, t', headers, hfields, -⟩ := h
    cases pre with
    | nil => cases hfields
    | cons field pre =>
        obtain ⟨-, hrest⟩ := List.cons.inj hfields
        simp at hrest
  exact intact_iff rfl (.call .init hnone) _

theorem not_intact : ¬ ∀ st₀ st : HPACKState, st₀.postInit = .ok () →
    Reached (fun _ _ => True) st₀ st → ∀ c, Intact st c := by
  intro h
  obtain ⟨-, hbounds⟩ := h {} {} rfl .init (.updateTableCapacity 4097)
  have hafter : HasBounds 4097 4096 (after (callInPlace (.updateTableCapacity 4097) {})) :=
    after_bind (hasBounds_updateTableCapacity 4097 {}) fun _ _ hs => hs
  have hmax := hbounds.2.2
  rw [hafter.1, hafter.2] at hmax
  omega

end HPACKState

end HttpGarden.Hpack
