import HttpGarden.Hpack.State
import HttpGarden.Lib.LongestPrefix

/-!
# HttpGarden.Hpack.DynamicTable

**The dynamic table in the abstract**, and the refinement of it by `HPACKState`.

A `Table` cannot be over its capacity, and what an insertion or a change of capacity
leaves is by definition the longest prefix that fits. Names and values are looked up in
one address space, the static table followed by the dynamic one.

* `processFieldBlock_state`: `HPACKState` decodes a block exactly if the reference
  decoder over a `Table` does, with the same result.
* `runs_state`: the same for every sequence of calls, from every state that passes
  `__post_init__`.
-/

namespace HttpGarden.Hpack

open Lib

/-! ### Tables -/

/-- Entries that fit a capacity, which is within its own bound. -/
structure Table where
  entries : List Header
  capacity : Nat
  maxCapacity : Nat
  fits : Fits entrySize capacity entries
  bounded : capacity ≤ maxCapacity

namespace Table

/-- A new entry in front; the oldest ones go. -/
def insert (t : Table) (header : Header) : Table where
  entries := fitting entrySize t.capacity (header :: t.entries)
  capacity := t.capacity
  maxCapacity := t.maxCapacity
  fits := (fitting_isLongestPrefix t.capacity _).holds
  bounded := t.bounded

/-- Another capacity, up to the maximum. -/
def resize (t : Table) (capacity : Int) : Option Table :=
  if h : 0 ≤ capacity ∧ capacity ≤ t.maxCapacity then
    some {
      entries := fitting entrySize capacity.toNat t.entries
      capacity := capacity.toNat
      maxCapacity := t.maxCapacity
      fits := (fitting_isLongestPrefix capacity.toNat _).holds
      bounded := by omega }
  else none

/-- The address space of indices starts at one. -/
def lookup (t : Table) (index : Int) : Option Header :=
  if 0 < index then (staticTable ++ t.entries)[(index - 1).toNat]? else none

/-- **The reference decoder** for one field: the header it stands for, and the table
after it. The name that an index refers to is the one in the table before. -/
def decodeField (t : Table) : HPACKField → Option (Table × List Header)
  | .indexed index => (t.lookup index.val).map fun header => (t, [header])
  | .literal key val prop =>
    let header := (key.data, val.data)
    some (if prop = .cached then t.insert header else t, [header])
  | .partialIndexed prop index val => (t.lookup index.val).map fun entry =>
    let header := (entry.1, val.data)
    (if prop = .cached then t.insert header else t, [header])
  | .dynamicTableSizeUpdate size => (t.resize size.val).map fun t' => (t', [])

def decode (t : Table) : List HPACKField → Option (Table × List Header)
  | [] => some (t, [])
  | field :: fields => do
    let (t', headers) ← t.decodeField field
    let (t'', headers') ← t'.decode fields
    return (t'', headers ++ headers')

/-- The state of the code that a table stands for. -/
def state (t : Table) : HPACKState := ⟨t.capacity, t.maxCapacity, t.entries⟩

theorem state_injective : Function.Injective state := by
  intro t t' h
  cases t
  cases t'
  simp only [state, HPACKState.mk.injEq, Nat.cast_inj] at h
  obtain ⟨rfl, rfl, rfl⟩ := h
  rfl

end Table

/-! ### One call -/

namespace HPACKState

open Table

/-- The check in `__post_init__` says that the state is that of a table. -/
theorem postInit_eq_ok {st : HPACKState} : st.postInit = .ok () ↔ ∃ t : Table, t.state = st := by
  rw [postInit]
  constructor
  · intro h
    by_cases hc : 0 ≤ (st.tableSize : Int) ∧ st.tableSize ≤ st.tableCapacity ∧
        st.tableCapacity ≤ st.maxTableCapacity
    · obtain ⟨c, m, l⟩ := st
      obtain ⟨-, hfits, hmax⟩ := hc
      simp only at hfits hmax
      lift c to Nat using by omega
      lift m to Nat using by omega
      exact ⟨⟨l, c, m, by exact_mod_cast hfits, by exact_mod_cast hmax⟩, rfl⟩
    · rw [if_neg hc] at h
      cases h
  · intro ⟨t, ht⟩
    rw [← ht]
    exact if_pos ⟨Int.natCast_nonneg _, Int.ofNat_le.mpr t.fits, Int.ofNat_le.mpr t.bounded⟩

/-- The loop is left when the entries fit. -/
theorem maybeEvictFromTable_of_le {st : HPACKState} (h : st.tableSize ≤ st.tableCapacity) :
    st.maybeEvictFromTable = .ok st := by
  rw [maybeEvictFromTable, if_neg (by omega)]

/-- One iteration drops the entry on the right. -/
theorem maybeEvictFromTable_append {c m : Int} {l : List Header} {header : Header}
    (h : tableSize ⟨c, m, l ++ [header]⟩ > c) :
    maybeEvictFromTable ⟨c, m, l ++ [header]⟩ = maybeEvictFromTable ⟨c, m, l⟩ := by
  rw [maybeEvictFromTable, if_pos h]
  split
  · rename_i hnil
    simp at hnil
  · rename_i h' t' hcons
    have hl : (h' :: t').dropLast = l := by
      rw [← show l ++ [header] = h' :: t' from hcons, List.dropLast_concat]
    rw [hl]

theorem maybeEvictFromTable_nil {c m : Int} (h : tableSize ⟨c, m, []⟩ > c) :
    maybeEvictFromTable ⟨c, m, []⟩ = .error (.indexError "pop from an empty deque") := by
  rw [maybeEvictFromTable, if_pos h]

/-- **Eviction** leaves the longest prefix that fits. -/
theorem maybeEvictFromTable_eq {c : Nat} {m : Int} (l : List Header) :
    maybeEvictFromTable ⟨c, m, l⟩ = .ok ⟨c, m, fitting entrySize c l⟩ := by
  induction l using List.reverseRecOn with
  | nil => exact maybeEvictFromTable_of_le (Int.natCast_nonneg c)
  | append_singleton l header ih =>
      by_cases h : Fits entrySize c (l ++ [header])
      · rw [fitting_eq_self h]
        exact maybeEvictFromTable_of_le (Int.ofNat_le.mpr h)
      · rw [fitting_append_singleton h, ← ih]
        exact maybeEvictFromTable_append (Int.ofNat_lt.mpr (Nat.lt_of_not_le h))

/-- With a negative capacity the loop goes on to the empty table. -/
theorem maybeEvictFromTable_of_neg {c m : Int} (h : c < 0) (l : List Header) :
    maybeEvictFromTable ⟨c, m, l⟩ = .error (.indexError "pop from an empty deque") := by
  induction l using List.reverseRecOn with
  | nil => exact maybeEvictFromTable_nil h
  | append_singleton l header ih =>
      rw [maybeEvictFromTable_append (h.trans_le (Int.natCast_nonneg _)), ih]

/-- An insertion never fails. -/
theorem addHeaderToDynamicTable_state (t : Table) (header : Header) :
    t.state.addHeaderToDynamicTable header = .ok (t.insert header).state :=
  maybeEvictFromTable_eq (header :: t.entries)

theorem resize_eq_some {t t' : Table} {val : Int} :
    t.resize val = some t' ↔ 0 ≤ val ∧ val ≤ t.maxCapacity ∧
      t'.state = ⟨val, t.maxCapacity, fitting entrySize val.toNat t.entries⟩ := by
  unfold resize
  by_cases h : 0 ≤ val ∧ val ≤ t.maxCapacity
  · have hval : (val.toNat : Int) = val := Int.toNat_of_nonneg h.1
    rw [dif_pos h, Option.some.injEq, ← state_injective.eq_iff]
    simp only [state, hval, h.1, h.2, true_and]
    exact eq_comm
  · rw [dif_neg h]
    exact ⟨nofun, fun h' => absurd ⟨h'.1, h'.2.1⟩ h⟩

/-- A change of capacity is accepted from zero up to the maximum. -/
theorem updateTableCapacity_state {t : Table} {val : Int} {st : HPACKState} :
    t.state.updateTableCapacity val = .ok st ↔ ∃ t', t.resize val = some t' ∧ t'.state = st := by
  unfold updateTableCapacity
  by_cases h0 : 0 ≤ val
  · lift val to Nat using h0
    have hevict : maybeEvictFromTable { t.state with tableCapacity := (val : Int) } =
        .ok ⟨val, t.maxCapacity, fitting entrySize val t.entries⟩ :=
      maybeEvictFromTable_eq t.entries
    rw [hevict, ok_bind, check_bind_eq_ok, postInit_eq_ok]
    simp only [pure_eq_ok, Except.ok.injEq, resize_eq_some, Int.natCast_nonneg, true_and,
      Int.toNat_natCast]
    constructor
    · intro ⟨⟨t', ht'⟩, hst⟩
      refine ⟨t', ⟨?_, ht'⟩, ht'.trans hst⟩
      have hcap : t'.capacity = val := Int.ofNat_inj.mp (congrArg tableCapacity ht')
      have hmax : t'.maxCapacity = t.maxCapacity :=
        Int.ofNat_inj.mp (congrArg maxTableCapacity ht')
      have := t'.bounded
      omega
    · intro ⟨t', ⟨_, ht'⟩, hst⟩
      exact ⟨⟨t', ht'⟩, ht'.symm.trans hst⟩
  · have hevict : maybeEvictFromTable { t.state with tableCapacity := val } = .error _ :=
      maybeEvictFromTable_of_neg (by omega) t.entries
    rw [hevict, error_bind]
    constructor
    · intro h
      cases h
    · intro ⟨t', ht', _⟩
      exact absurd (resize_eq_some.mp ht').1 h0

theorem getHeader_state {t : Table} {index : Int} {header : Header} :
    t.state.getHeader index = .ok header ↔ t.lookup index = some header := by
  unfold getHeader lookup
  by_cases h : 0 < index
  · rw [if_neg (not_not.mpr h), if_pos h, List.getElem?_append]
    simp only [state]
    by_cases hi : (index - 1).toNat < staticTable.length
    · rw [if_pos hi, List.getElem?_eq_getElem hi]
      simp
    · rw [if_neg hi, List.getElem?_eq_none (by omega)]
      cases t.entries[(index - 1).toNat - staticTable.length]? <;> simp
  · rw [if_pos h, if_neg h]
    simp

/-! ### One field, and a block -/

theorem getHeaderName_state {t : Table} {index : Int} {name : Bytes} :
    t.state.getHeaderName index = .ok name ↔ ∃ entry, t.lookup index = some entry ∧
      entry.1 = name := by
  rw [getHeaderName, bind_eq_ok]
  simp only [getHeader_state, pure_eq_ok, Except.ok.injEq]

/-- The insertion of a header that is only made for cached fields. -/
theorem insert_if_cached {t : Table} {prop : HPACKHeaderFieldProperty} {header : Header}
    {result : List Header} :
    (if prop = .cached then do
        return (← t.state.addHeaderToDynamicTable header, result)
      else return (t.state, result) : Except PyError (HPACKState × List Header)) =
      .ok ((if prop = .cached then t.insert header else t).state, result) := by
  by_cases h : prop = .cached
  · rw [if_pos h, if_pos h, addHeaderToDynamicTable_state]
    rfl
  · rw [if_neg h, if_neg h]
    rfl

/-- One iteration is one step of the reference decoder. -/
theorem processField_state {t : Table} {result result' : List Header} {field : HPACKField}
    {st : HPACKState} :
    processField (t.state, result) field = .ok (st, result') ↔
      ∃ t' headers, t.decodeField field = some (t', headers) ∧ t'.state = st ∧
        result ++ headers = result' := by
  cases field with
  | indexed index =>
      simp only [processField, decodeField, bind_eq_ok, getHeader_state, pure_eq_ok,
        Except.ok.injEq, Prod.mk.injEq, Option.map_eq_some_iff]
      refine ⟨fun h => ?_, fun h => ?_⟩
      · obtain ⟨header, hlookup, hst, hresult⟩ := h
        exact ⟨t, [header], ⟨header, hlookup, rfl, rfl⟩, hst, hresult⟩
      · obtain ⟨t', headers, ⟨header, hlookup, ht, hheaders⟩, hst, hresult⟩ := h
        subst ht hheaders
        exact ⟨header, hlookup, hst, hresult⟩
  | literal key val prop =>
      simp only [processField, decodeField, insert_if_cached, Option.some.injEq, Prod.mk.injEq,
        Except.ok.injEq]
      refine ⟨fun h => ?_, fun h => ?_⟩
      · obtain ⟨hst, hresult⟩ := h
        exact ⟨_, _, ⟨rfl, rfl⟩, hst, hresult⟩
      · obtain ⟨t', headers, ⟨ht, hheaders⟩, hst, hresult⟩ := h
        subst ht hheaders
        exact ⟨hst, hresult⟩
  | partialIndexed prop index val =>
      simp only [processField, decodeField]
      cases hlookup : t.lookup index.val with
      | none =>
          have hname : ∀ name, t.state.getHeaderName index.val ≠ .ok name := by
            intro name h
            obtain ⟨entry, hentry, -⟩ := getHeaderName_state.mp h
            rw [hlookup] at hentry
            cases hentry
          refine ⟨fun h => ?_, fun h => ?_⟩
          · obtain ⟨name, h, -⟩ := bind_eq_ok.mp h
            exact absurd h (hname name)
          · obtain ⟨t', headers, h, -⟩ := h
            cases h
      | some entry =>
          have hname : t.state.getHeaderName index.val = .ok entry.1 :=
            getHeaderName_state.mpr ⟨entry, hlookup, rfl⟩
          simp only [hname, ok_bind, insert_if_cached, Option.map_some, Option.some.injEq,
            Prod.mk.injEq, Except.ok.injEq]
          refine ⟨fun h => ?_, fun h => ?_⟩
          · obtain ⟨hst, hresult⟩ := h
            exact ⟨_, _, ⟨rfl, rfl⟩, hst, hresult⟩
          · obtain ⟨t', headers, ⟨ht, hheaders⟩, hst, hresult⟩ := h
            subst ht hheaders
            exact ⟨hst, hresult⟩
  | dynamicTableSizeUpdate size =>
      simp only [processField, decodeField, bind_eq_ok, updateTableCapacity_state, pure_eq_ok,
        Except.ok.injEq, Prod.mk.injEq, Option.map_eq_some_iff]
      refine ⟨fun h => ?_, fun h => ?_⟩
      · obtain ⟨st', ⟨t', hresize, ht⟩, hst, hresult⟩ := h
        exact ⟨t', [], ⟨t', hresize, rfl, rfl⟩, ht.trans hst, by rw [List.append_nil, hresult]⟩
      · obtain ⟨t', headers, ⟨t'', hresize, ht, hheaders⟩, hst, hresult⟩ := h
        subst ht hheaders
        exact ⟨_, ⟨t'', hresize, rfl⟩, hst, by rw [← hresult, List.append_nil]⟩

/-- The loop over the fields, from the headers collected so far. -/
theorem foldlM_processField_state {t : Table} {fields : List HPACKField} {st : HPACKState}
    {result result' : List Header} :
    fields.foldlM processField (t.state, result) = .ok (st, result') ↔
      ∃ t' headers, t.decode fields = some (t', headers) ∧ t'.state = st ∧
        result ++ headers = result' := by
  induction fields generalizing t result with
  | nil =>
      rw [List.foldlM_nil, decode]
      simp only [pure_eq_ok, Except.ok.injEq, Prod.mk.injEq, Option.some.injEq]
      constructor
      · intro ⟨hst, hresult⟩
        exact ⟨t, [], ⟨rfl, rfl⟩, hst, by rw [List.append_nil, hresult]⟩
      · intro ⟨t', headers, ⟨ht, hheaders⟩, hst, hresult⟩
        subst ht hheaders
        exact ⟨hst, by rw [← hresult, List.append_nil]⟩
  | cons field fields ih =>
      rw [List.foldlM_cons, bind_eq_ok]
      constructor
      · intro ⟨⟨st₁, result₁⟩, hstep, hrest⟩
        obtain ⟨t₁, headers₁, hdecode, rfl, rfl⟩ := processField_state.mp hstep
        obtain ⟨t', headers', hdecode', hst, hresult⟩ := ih.mp hrest
        refine ⟨t', headers₁ ++ headers', ?_, hst, by rw [← hresult, List.append_assoc]⟩
        exact Option.bind_eq_some_iff.mpr ⟨(t₁, headers₁), hdecode,
          Option.bind_eq_some_iff.mpr ⟨(t', headers'), hdecode', rfl⟩⟩
      · intro ⟨t', headers, hdecode, hst, hresult⟩
        obtain ⟨⟨t₁, headers₁⟩, hstep, hrest⟩ := Option.bind_eq_some_iff.mp hdecode
        obtain ⟨⟨t₂, headers₂⟩, hdecode', hpair⟩ := Option.bind_eq_some_iff.mp hrest
        cases hpair
        refine ⟨(t₁.state, result ++ headers₁), processField_state.mpr ⟨t₁, _, hstep, rfl, rfl⟩, ?_⟩
        exact ih.mpr ⟨t', headers₂, hdecode', hst, by rw [← hresult, List.append_assoc]⟩

/-- **A block is decoded** as the reference decoder does. -/
theorem processFieldBlock_state {t : Table} {fields : List HPACKField} {st : HPACKState}
    {headers : List Header} :
    t.state.processFieldBlock fields = .ok (st, headers) ↔
      ∃ t', t.decode fields = some (t', headers) ∧ t'.state = st := by
  rw [processFieldBlock, foldlM_processField_state]
  constructor
  · intro ⟨t', headers', hdecode, hst, hheaders⟩
    rw [List.nil_append] at hheaders
    exact ⟨t', hheaders ▸ hdecode, hst⟩
  · intro ⟨t', hdecode, hst⟩
    exact ⟨t', headers, hdecode, hst, List.nil_append headers⟩

end HPACKState

/-! ### Sequences of calls -/

/-- The calls of the public methods that change the state. -/
inductive Call
  | processFieldBlock (fieldBlock : List HPACKField)
  | addHeaderToDynamicTable (header : Header)
  | updateTableCapacity (val : Int)

/-- The state after a call, and the headers that it returns. -/
def HPACKState.call (st : HPACKState) : Call → Except PyError (HPACKState × List Header)
  | .processFieldBlock fieldBlock => st.processFieldBlock fieldBlock
  | .addHeaderToDynamicTable header => do return (← st.addHeaderToDynamicTable header, [])
  | .updateTableCapacity val => do return (← st.updateTableCapacity val, [])

/-- The same calls of a table. -/
def Table.call (t : Table) : Call → Option (Table × List Header)
  | .processFieldBlock fieldBlock => t.decode fieldBlock
  | .addHeaderToDynamicTable header => some (t.insert header, [])
  | .updateTableCapacity val => (t.resize val).map fun t' => (t', [])

/-- The calls succeed one after the other and return the given headers. -/
inductive HPACKState.Runs : HPACKState → List Call → List (List Header) → HPACKState → Prop
  | nil (st : HPACKState) : Runs st [] [] st
  | cons {st st' st'' : HPACKState} {c : Call} {cs : List Call} {out : List Header}
      {outs : List (List Header)} (h : st.call c = .ok (st', out)) (hs : Runs st' cs outs st'') :
      Runs st (c :: cs) (out :: outs) st''

/-- The same run of a table. -/
inductive Table.Runs : Table → List Call → List (List Header) → Table → Prop
  | nil (t : Table) : Runs t [] [] t
  | cons {t t' t'' : Table} {c : Call} {cs : List Call} {out : List Header}
      {outs : List (List Header)} (h : t.call c = some (t', out)) (hs : Runs t' cs outs t'') :
      Runs t (c :: cs) (out :: outs) t''

namespace HPACKState

open Table

theorem call_state {t : Table} {c : Call} {st : HPACKState} {out : List Header} :
    t.state.call c = .ok (st, out) ↔ ∃ t', t.call c = some (t', out) ∧ t'.state = st := by
  cases c with
  | processFieldBlock fields => exact processFieldBlock_state
  | addHeaderToDynamicTable header =>
      simp only [call, Table.call, addHeaderToDynamicTable_state, ok_bind, pure_eq_ok,
        Except.ok.injEq, Prod.mk.injEq, Option.some.injEq]
      constructor
      · intro ⟨hst, hout⟩
        exact ⟨_, ⟨rfl, hout⟩, hst⟩
      · intro ⟨t', ⟨ht, hout⟩, hst⟩
        exact ⟨ht ▸ hst, hout⟩
  | updateTableCapacity val =>
      simp only [call, Table.call, bind_eq_ok, updateTableCapacity_state, pure_eq_ok,
        Except.ok.injEq, Prod.mk.injEq, Option.map_eq_some_iff]
      constructor
      · intro ⟨st', ⟨t', hresize, ht⟩, hst, hout⟩
        exact ⟨t', ⟨t', hresize, rfl, hout⟩, ht.trans hst⟩
      · intro ⟨t', ⟨t'', hresize, ht, hout⟩, hst⟩
        exact ⟨t''.state, ⟨t'', hresize, rfl⟩, ht ▸ hst, hout⟩

/-- **Every run** of calls is a run of the table. -/
theorem runs_state {t : Table} {cs : List Call} {outs : List (List Header)}
    {st : HPACKState} : t.state.Runs cs outs st ↔ ∃ t', t.Runs cs outs t' ∧ t'.state = st := by
  constructor
  · intro h
    induction cs generalizing t outs with
    | nil =>
        cases h
        exact ⟨t, .nil t, rfl⟩
    | cons c cs ih =>
        cases h with
        | cons hcall hrest =>
            obtain ⟨t₁, ht₁, rfl⟩ := call_state.mp hcall
            obtain ⟨t', ht', hst⟩ := ih hrest
            exact ⟨t', .cons ht₁ ht', hst⟩
  · intro ⟨t', h, hst⟩
    induction h with
    | nil t => exact hst ▸ .nil t.state
    | cons h _ ih => exact .cons (call_state.mpr ⟨_, h, rfl⟩) (ih hst)

/-- The longest prefix of the entries whose size is at most the capacity. -/
def IsEvictionOf (capacity : Int) (l p : List Header) : Prop :=
  IsLongestPrefix (fun q => ((q.map entrySize).sum : Int) ≤ capacity) l p

theorem isEvictionOf_fitting (c : Nat) (l : List Header) :
    IsEvictionOf c l (fitting entrySize c l) := by
  have hfits : (fun q => ((q.map entrySize).sum : Int) ≤ (c : Int)) = Fits entrySize c :=
    funext fun q => propext Int.ofNat_le
  rw [IsEvictionOf, hfits]
  exact fitting_isLongestPrefix c l

/-- **`HPACKState` is the dynamic table of the reference decoder.** After any run of calls
from a state that passes `__post_init__`:
* the size is within the capacity and the capacity within its bound;
* an eviction comes to an end before the table is empty;
* an insertion, and a change of capacity that is accepted, leave the longest prefix that
  fits;
* the headers returned are those of the same run of the reference. -/
theorem refines_table {st₀ st : HPACKState} {cs : List Call}
    {outs : List (List Header)} (h₀ : st₀.postInit = .ok ()) (h : st₀.Runs cs outs st) :
    (0 ≤ (st.tableSize : Int) ∧ st.tableSize ≤ st.tableCapacity ∧
      st.tableCapacity ≤ st.maxTableCapacity) ∧
    (∀ val, 0 ≤ val → ∃ st', maybeEvictFromTable { st with tableCapacity := val } = .ok st') ∧
    (∀ header, ∃ st', st.addHeaderToDynamicTable header = .ok st' ∧
      st'.tableCapacity = st.tableCapacity ∧ st'.maxTableCapacity = st.maxTableCapacity ∧
      IsEvictionOf st.tableCapacity (header :: st.dynamicTable) st'.dynamicTable) ∧
    (∀ val st', st.updateTableCapacity val = .ok st' →
      st'.tableCapacity = val ∧ st'.maxTableCapacity = st.maxTableCapacity ∧
      IsEvictionOf val st.dynamicTable st'.dynamicTable) ∧
    ∃ t₀ t : Table, t₀.state = st₀ ∧ t₀.Runs cs outs t ∧ t.state = st := by
  obtain ⟨t₀, rfl⟩ := postInit_eq_ok.mp h₀
  obtain ⟨t, hruns, rfl⟩ := runs_state.mp h
  refine ⟨?_, ?_, ?_, ?_, t₀, t, rfl, hruns, rfl⟩
  · exact ⟨Int.natCast_nonneg _, Int.ofNat_le.mpr t.fits, Int.ofNat_le.mpr t.bounded⟩
  · intro val h0
    lift val to Nat using h0
    exact ⟨_, maybeEvictFromTable_eq t.entries⟩
  · intro header
    exact ⟨_, addHeaderToDynamicTable_state t header, rfl, rfl, isEvictionOf_fitting _ _⟩
  · intro val st' hupdate
    obtain ⟨t', hresize, rfl⟩ := updateTableCapacity_state.mp hupdate
    obtain ⟨h0, -, ht'⟩ := resize_eq_some.mp hresize
    lift val to Nat using h0
    rw [ht', Int.toNat_natCast]
    exact ⟨rfl, rfl, isEvictionOf_fitting val t.entries⟩

/-- The insertion of the second entry evicts the first one, of which it takes the name. -/
theorem refines_table_ownName :
    let st₀ : HPACKState := ⟨40, 4096, []⟩
    let st : HPACKState := ⟨40, 4096, [([1], [3])]⟩
    let cs : List Call := [.addHeaderToDynamicTable ([1], [2]),
      .processFieldBlock [.partialIndexed .cached ⟨62, 0⟩ ⟨[3], false, none, none⟩]]
    (0 ≤ (st.tableSize : Int) ∧ st.tableSize ≤ st.tableCapacity ∧
      st.tableCapacity ≤ st.maxTableCapacity) ∧
    (∀ val, 0 ≤ val → ∃ st', maybeEvictFromTable { st with tableCapacity := val } = .ok st') ∧
    (∀ header, ∃ st', st.addHeaderToDynamicTable header = .ok st' ∧
      st'.tableCapacity = st.tableCapacity ∧ st'.maxTableCapacity = st.maxTableCapacity ∧
      IsEvictionOf st.tableCapacity (header :: st.dynamicTable) st'.dynamicTable) ∧
    (∀ val st', st.updateTableCapacity val = .ok st' →
      st'.tableCapacity = val ∧ st'.maxTableCapacity = st.maxTableCapacity ∧
      IsEvictionOf val st.dynamicTable st'.dynamicTable) ∧
    ∃ t₀ t : Table, t₀.state = st₀ ∧ t₀.Runs cs [[], [([1], [3])]] t ∧ t.state = st := by
  intro st₀ st cs
  let t₀ : Table := ⟨[], 40, 4096, by decide, by decide⟩
  have hruns : Runs st₀ cs [[], [([1], [3])]] st :=
    (runs_state (t := t₀)).mpr ⟨_, .cons rfl (.cons rfl (.nil _)), rfl⟩
  exact refines_table rfl hruns

end HPACKState

end HttpGarden.Hpack
