import HttpGarden.Diff.NormalForm

/-!
# HttpGarden.Diff.Rearranged

The verdict does not depend on the **order of headers with different names**, nor on the **letter
case of names**, as long as the servers' translations do not look at letters.

The one idea is that normalizing uses a name only through its lower case: removal compares lower
case, joining groups by it, and a translation without letters in its keys rewrites a name the same
way in either case. So what equality sees of a normalized request is a function of the lower-cased
headers up to order (`perm_visible_normalizeRequest_of_rearranged`), and the lower-cased headers
are the same up to order if every name has the same values.
-/

namespace HttpGarden

open Lib

/-! ### Translations without letters -/

/-- An ASCII letter, in either case. -/
def isLetter (c : UInt8) : Bool := (65 ≤ c && c ≤ 90) || (97 ≤ c && c ≤ 122)

/-- What the translation replaces contains no letters. -/
def LetterFree (tr : List (Bytes × Bytes)) : Prop := ∀ p ∈ tr, ∀ c ∈ p.1, isLetter c = false

instance (tr : List (Bytes × Bytes)) : Decidable (LetterFree tr) :=
  inferInstanceAs (Decidable (∀ p ∈ tr, ∀ c ∈ p.1, isLetter c = false))

theorem lowerByte_of_not_letter {c : UInt8} : isLetter c = false → lowerByte c = c :=
  forall_byte (P := fun c => isLetter c = false → lowerByte c = c) (by decide +kernel) c

theorem isLetter_lowerByte (c : UInt8) : isLetter (lowerByte c) = isLetter c :=
  forall_byte (P := fun c => isLetter (lowerByte c) = isLetter c) (by decide +kernel) c

/-- A byte that is not a letter is found in a name if it is found in the name's lower case. -/
theorem eq_lowerByte_iff {c d : UInt8} (hc : isLetter c = false) : c = lowerByte d ↔ c = d := by
  refine ⟨fun h => ?_, fun h => ?_⟩
  · have hd : isLetter d = false := by rw [← isLetter_lowerByte, ← h, hc]
    rw [h, lowerByte_of_not_letter hd]
  · rw [← h, lowerByte_of_not_letter hc]

variable {old s s' : Bytes} {tr : List (Bytes × Bytes)}

theorem prefix_lower_iff (hold : ∀ c ∈ old, isLetter c = false) (s : Bytes) :
    old <+: lower s ↔ old <+: s := by
  induction old generalizing s with
  | nil => exact iff_of_true List.nil_prefix List.nil_prefix
  | cons c old ih =>
      obtain ⟨hc, hold⟩ := List.forall_mem_cons.mp hold
      cases s with
      | nil => exact Iff.rfl
      | cons d s =>
          rw [lower_eq_map, List.map_cons, List.cons_prefix_cons, List.cons_prefix_cons,
            eq_lowerByte_iff hc, ← lower_eq_map, ih hold]

theorem lower_append (s t : Bytes) : lower (s ++ t) = lower s ++ lower t := List.map_append

theorem lower_replaceFrom_congr (hold : ∀ c ∈ old, isLetter c = false) (new : Bytes) (skip : Nat)
    (h : lower s = lower s') :
    lower (replaceFrom old new skip s) = lower (replaceFrom old new skip s') := by
  induction s generalizing s' skip with
  | nil =>
      rw [List.map_eq_nil_iff.mp h.symm]
  | cons c t ih =>
      obtain ⟨c', t', rfl, hc, ht⟩ := List.map_eq_cons_iff.mp h.symm
      have ht : lower t = lower t' := ht.symm
      cases skip with
      | succ skip => exact ih skip ht
      | zero =>
          -- an occurrence starts here in both, or in neither
          have hoccurs : old <+: c :: t ↔ old <+: c' :: t' := by
            rw [← prefix_lower_iff hold, h, prefix_lower_iff hold]
          rw [replaceFrom, replaceFrom]
          by_cases hpre : old <+: c :: t
          · rw [if_pos hpre, if_pos (hoccurs.mp hpre), lower_append, lower_append, ih _ ht]
          · rw [if_neg hpre, if_neg fun h => hpre (hoccurs.mpr h), lower_eq_map, lower_eq_map,
              List.map_cons, List.map_cons, ← lower_eq_map, ← lower_eq_map, ih _ ht]
            exact congrArg (· :: _) hc.symm

theorem lower_replace_congr (hold : ∀ c ∈ old, isLetter c = false) (new : Bytes)
    (h : lower s = lower s') : lower (replace old new s) = lower (replace old new s') := by
  unfold replace
  split
  · have hflat (s : Bytes) : lower (s.flatMap fun c => c :: new) =
        (lower s).flatMap fun c => c :: lower new := by
      rw [lower_eq_map, lower_eq_map s, List.map_flatMap, List.flatMap_map]
      rfl
    rw [lower_append, lower_append, hflat, hflat, h]
  · exact lower_replaceFrom_congr hold new 0 h

/-- **Translating a name** goes the same way in any case of its letters. -/
theorem lower_translate_congr (htr : LetterFree tr) (h : lower s = lower s') :
    lower (translate s tr) = lower (translate s' tr) := by
  unfold translate
  induction tr generalizing s s' with
  | nil => exact h
  | cons p tr ih =>
      obtain ⟨hp, htr⟩ := List.forall_mem_cons.mp htr
      exact ih htr (lower_replace_congr hp p.2 h)

/-! ### Rearranging headers -/

/-- The headers of every name have the same values in the same order, ignoring case. -/
def Rearranged (hs hs' : List Header) : Prop := ∀ name, valuesOf name hs = valuesOf name hs'

variable {hs hs' : List Header}

/-- Headers of different names that stand next to each other change places. -/
theorem rearranged_swap (pre post : List Header) {h k : Header} (hne : lower h.1 ≠ lower k.1) :
    Rearranged (pre ++ h :: k :: post) (pre ++ k :: h :: post) := by
  intro name
  unfold valuesOf
  rw [List.filter_append, List.filter_append]
  by_cases hh : lower h.1 = name
  · have hk : ¬ lower k.1 = name := fun hk => hne (hh.trans hk.symm)
    simp [hh, hk]
  · simp [List.filter_cons, hh]

/-- A name is written in another case. -/
theorem rearranged_recase (pre post : List Header) {h k : Header} (hname : lower h.1 = lower k.1)
    (hvalue : h.2 = k.2) : Rearranged (pre ++ h :: post) (pre ++ k :: post) := by
  intro name
  unfold valuesOf
  rw [List.filter_append, List.filter_append, List.filter_cons, List.filter_cons, hname]
  split
  · simp [hvalue]
  · rfl

/-- The lower-cased headers of each name are the same, in the same order. -/
theorem Rearranged.filter_map_lowerName (h : Rearranged hs hs') (name : Bytes) :
    (hs.map lowerName).filter (fun h => h.1 == name) =
      (hs'.map lowerName).filter fun h => h.1 == name := by
  rw [HttpGarden.filter_map_lowerName, HttpGarden.filter_map_lowerName, h name]

theorem Rearranged.perm (h : Rearranged hs hs') : (hs.map lowerName).Perm (hs'.map lowerName) :=
  perm_of_filter_eq h.filter_map_lowerName

/-! ### Normalizing -/

/-- What equality sees of a list of headers after removing and translating, from the lower-cased
headers alone. -/
theorem visible_translated (htr : LetterFree tr) (names : List Bytes) (hs : List Header) :
    visible ((hs.filter fun h => !names.contains (lower h.1)).map
      (Prod.map (translate · tr) id)) =
    visible (((hs.map lowerName).filter fun h => !names.contains (lower h.1)).map
      (Prod.map (translate · tr) id)) := by
  have hname (h : Header) : lower (translate (lower h.1) tr) = lower (translate h.1 tr) :=
    lower_translate_congr htr (lower_lower h.1)
  simp only [visible, List.filter_map, List.map_map, Function.comp_def, Prod.map_fst,
    Prod.map_snd, lowerName, lower_lower, hname]

/-- **What normalizing leaves** is the same for rearranged headers, up to order. -/
theorem perm_visible_normalizeRequest_of_rearranged {r r' : HTTPRequest} {s1 s2 : Server}
    (htr : LetterFree s2.headerNameTranslation) (h : Rearranged r.headers r'.headers) :
    (visible (normalizeRequest r s1 s2).headers).Perm
      (visible (normalizeRequest r' s1 s2).headers) := by
  -- joined or not, the lower-cased headers are the same up to order
  have hedited {hs hs' : List Header} (hperm : (hs.map lowerName).Perm (hs'.map lowerName)) :
      (visible ((hs.filter fun h => !((removedNames s1 s2).map lower).contains (lower h.1)).map
        (Prod.map (translate · s2.headerNameTranslation) id))).Perm
      (visible ((hs'.filter fun h => !((removedNames s1 s2).map lower).contains (lower h.1)).map
        (Prod.map (translate · s2.headerNameTranslation) id))) := by
    rw [visible_translated htr, visible_translated htr _ hs']
    exact perm_visible ((hperm.filter _).map _)
  have hsorted (hs : List Header) : (visible (sortHeaders hs)).Perm (visible hs) :=
    perm_visible (List.perm_insertionSort headerLE hs)
  rw [normalizeRequest_eq_with, normalizeRequest_eq_with]
  refine (hsorted _).trans (List.Perm.trans (hedited ?_) (hsorted _).symm)
  split
  · have hlower (r : HTTPRequest) :
        ((joinDuplicateHeaders r s2.duplicateHeaderJoiner).headers).map lowerName =
          groupWith (joinWith s2.duplicateHeaderJoiner) (r.headers.map lowerName) := by
      rw [joinDuplicateHeaders_eq]
      refine map_lowerName_groupWith fun h hh => ?_
      obtain ⟨h', -, rfl⟩ := List.mem_map.mp hh
      exact lower_lower h'.1
    rw [hlower, hlower]
    exact groupWith_perm h.filter_map_lowerName
  · exact h.perm

/-! ### Rearranged requests -/

/-- The same request, with its headers in another order and their names in another case. The names
are all valid in both, or in neither. -/
structure HTTPRequest.Rearranged (r r' : HTTPRequest) : Prop where
  method : r.method = r'.method
  uri : r.uri = r'.uri
  body : r.body = r'.body
  version : r.version = r'.version
  headers : HttpGarden.Rearranged r.headers r'.headers
  names : (r.headers.all fun h => HTTPRequest.properTchars h.1) =
    r'.headers.all fun h => HTTPRequest.properTchars h.1

/-- The same element of a stream, up to the headers of a request. -/
inductive Parsed.Rearranged : Parsed → Parsed → Prop
  | request {r r' : HTTPRequest} (h : r.Rearranged r') :
      Parsed.Rearranged (.request r) (.request r')
  | response (r : HTTPResponse) : Parsed.Rearranged (.response r) (.response r)

namespace HTTPRequest.Rearranged

variable {r r' r1 r1' r2 r2' : HTTPRequest}

/-- What is asked of the headers is asked of their lower-cased names. -/
theorem all_headers (h : r.Rearranged r') (p : Header → Bool) :
    r.headers.all (fun h => p (lowerName h)) = r'.headers.all fun h => p (lowerName h) := by
  have hall (hs : List Header) :
      hs.all (fun h => p (lowerName h)) = (hs.map lowerName).all p := List.all_map.symm
  rw [hall, hall, h.headers.perm.all_eq]

theorem isValid_eq (h : r.Rearranged r') : r.isValid = r'.isValid := by
  have hvalues := h.all_headers fun h => !h.2.any (invalidHeaderValueBytes.contains ·)
  simp only [lowerName] at hvalues
  rw [isValid, isValid, h.names, h.method, hvalues]

theorem hasHeader_eq (h : r.Rearranged r') (name : Bytes) (value : Option Bytes) :
    r.hasHeader name value = r'.hasHeader name value := by
  have hany (r : HTTPRequest) : r.hasHeader name value =
      !r.headers.all fun h => !((lowerName h).1 == lower name &&
        (value.isNone || value == some (lowerName h).2)) := by
    rw [hasHeader, List.not_all_eq_any_not]
    simp [lowerName]
  rw [hany, hany, h.all_headers fun h => !(h.1 == lower name && (value.isNone || value == some h.2))]

/-- Two comparisons of rearranged requests come to the same result. -/
theorem normalized_eqv {s1 s2 : Server} (h1 : r1.Rearranged r1') (h2 : r2.Rearranged r2')
    (htr1 : LetterFree s1.headerNameTranslation) (htr2 : LetterFree s2.headerNameTranslation) :
    (normalizeRequest r1 s1 s2).eqv (normalizeRequest r2 s2 s1) =
      (normalizeRequest r1' s1 s2).eqv (normalizeRequest r2' s2 s1) := by
  rw [Bool.eq_iff_iff, eqv_iff, eqv_iff,
    (perm_visible_normalizeRequest_of_rearranged htr2 h1.headers).congr_left,
    (perm_visible_normalizeRequest_of_rearranged htr1 h2.headers).congr_right]
  refine and_congr_left fun _ => ?_
  simp only [normalizeRequest_eq_with, SameBut, h1.method, h1.uri, h1.body, h1.version, h2.method,
    h2.uri, h2.body, h2.version]

end HTTPRequest.Rearranged

/-! ### One position -/

section

variable {r1 r1' r2 r2' : Option Parsed}

theorem isRequest_congr {p : HTTPRequest → Bool}
    (hp : ∀ {r r' : HTTPRequest}, r.Rearranged r' → p r = p r')
    (h : Option.Rel Parsed.Rearranged r1 r1') : isRequest p r1 = isRequest p r1' := by
  cases h with
  | none => rfl
  | some h =>
      cases h with
      | request h => exact hp h
      | response => rfl

theorem isResponse_congr (p : HTTPResponse → Bool) (h : Option.Rel Parsed.Rearranged r1 r1') :
    isResponse p r1 = isResponse p r1' := by
  cases h with
  | none => rfl
  | some h => cases h <;> rfl

theorem isNone_congr (h : Option.Rel Parsed.Rearranged r1 r1') : r1.isNone = r1'.isNone := by
  cases h <;> rfl

variable (s1 s2 : Server)

/-- The clauses look at nothing of the headers but their validity and the host header. -/
theorem earlyVerdict_congr (h1 : Option.Rel Parsed.Rearranged r1 r1')
    (h2 : Option.Rel Parsed.Rearranged r2 r2') :
    earlyVerdict r1 r2 s1 s2 = earlyVerdict r1' r2' s1 s2 := by
  have hvalid {r r' : HTTPRequest} (h : r.Rearranged r') : (!r.isValid) = !r'.isValid :=
    congrArg not h.isValid_eq
  have hhost {r r' : HTTPRequest} (h : r.Rearranged r') :
      (!r.hasHeader (bytes "host") none) = !r'.hasHeader (bytes "host") none :=
    congrArg not (h.hasHeader_eq (bytes "host") none)
  have hversion {r r' : HTTPRequest} (h : r.Rearranged r') :
      (r.version == bytes "0.9") = (r'.version == bytes "0.9") :=
    congrArg (· == bytes "0.9") h.version
  have hmethod (p : Bytes → Bool) {r r' : HTTPRequest} (h : r.Rearranged r') :
      p r.method = p r'.method := congrArg p h.method
  have hpost {r r' : HTTPRequest} := @hmethod (· == bytes "POST") r r'
  have hwhitelist (s : Server) {r r' : HTTPRequest} :=
    @hmethod (fun m => s.methodWhitelist.any (!·.contains m)) r r'
  have hblacklist (s : Server) {r r' : HTTPRequest} :=
    @hmethod (fun m => m.any (s.methodCharacterBlacklist.contains ·)) r r'
  have hresponse1 (p : HTTPResponse → Bool) := isResponse_congr p h1
  have hresponse2 (p : HTTPResponse → Bool) := isResponse_congr p h2
  have hnone1 := isNone_congr h1
  have hnone2 := isNone_congr h2
  have hinvalid : someInvalid r1 r2 = someInvalid r1' r2' := by
    rw [someInvalid, someInvalid, isRequest_congr hvalid h1, isRequest_congr hvalid h2]
  have herrored : erroredAlone r1 r2 = erroredAlone r1' r2' := by
    rw [erroredAlone, erroredAlone, hnone1, hnone2, hresponse1, hresponse2]
  have hmissing : oneMissing r1 r2 = oneMissing r1' r2' := by
    rw [oneMissing, oneMissing, hnone1, hnone2]
  have hmixed : mixedTypes r1 r2 = mixedTypes r1' r2' := by
    rw [mixedTypes, mixedTypes, isRequest_congr (fun _ => rfl) h1, isRequest_congr (fun _ => rfl) h2]
  have h09 : excusedByHttp09 r1 r2 s2 = excusedByHttp09 r1' r2' s2 := by
    rw [excusedByHttp09, excusedByHttp09, isRequest_congr hversion h1,
      isRequest_congr hversion h2, hresponse1, hresponse2]
  have hlength : excusedByLength r1 r2 s1 s2 = excusedByLength r1' r2' s1 s2 := by
    rw [excusedByLength, excusedByLength, isRequest_congr hpost h1, isRequest_congr hpost h2,
      hresponse1, hresponse2]
  have hmissingHost : excusedByHost r1 r2 s1 s2 = excusedByHost r1' r2' s1 s2 := by
    rw [excusedByHost, excusedByHost, isRequest_congr hhost h1, isRequest_congr hhost h2, hnone1,
      hnone2, hresponse1, hresponse2]
  have hlisted : excusedByWhitelist r1 r2 s1 s2 = excusedByWhitelist r1' r2' s1 s2 := by
    rw [excusedByWhitelist, excusedByWhitelist, isRequest_congr (hwhitelist s2) h1,
      isRequest_congr (hwhitelist s1) h2, hresponse1, hresponse2]
  have hbanned : excusedByBlacklist r1 r2 s1 s2 = excusedByBlacklist r1' r2' s1 s2 := by
    rw [excusedByBlacklist, excusedByBlacklist, isRequest_congr (hblacklist s2) h1,
      isRequest_congr (hblacklist s1) h2, hresponse1, hresponse2]
  rw [earlyVerdict, earlyVerdict, hinvalid, herrored, hmissing, hmixed, h09, hlength, hmissingHost,
    hlisted, hbanned]

variable {s1 s2}

theorem compareSameType_congr (h1 : Option.Rel Parsed.Rearranged r1 r1')
    (h2 : Option.Rel Parsed.Rearranged r2 r2') (htr1 : LetterFree s1.headerNameTranslation)
    (htr2 : LetterFree s2.headerNameTranslation) :
    compareSameType r1 r2 s1 s2 = compareSameType r1' r2' s1 s2 := by
  cases h1 with
  | none => rfl
  | some h1 =>
      cases h2 with
      | none => cases h1 <;> rfl
      | some h2 =>
          cases h1 with
          | response => cases h2 <;> rfl
          | request h1 =>
              cases h2 with
              | response => rfl
              | request h2 => rw [compareSameType, compareSameType, h1.normalized_eqv h2 htr1 htr2]

theorem comparePosition_congr (h1 : Option.Rel Parsed.Rearranged r1 r1')
    (h2 : Option.Rel Parsed.Rearranged r2 r2') (htr1 : LetterFree s1.headerNameTranslation)
    (htr2 : LetterFree s2.headerNameTranslation) :
    comparePosition r1 r2 s1 s2 = comparePosition r1' r2' s1 s2 := by
  rw [comparePosition, comparePosition, earlyVerdict_congr s1 s2 h1 h2,
    compareSameType_congr h1 h2 htr1 htr2]

end

/-! ### Whole streams -/

/-- Two positions that hold the same, up to the headers of requests. -/
def SamePosition (x y : Option Parsed × Option Parsed) : Prop :=
  Option.Rel Parsed.Rearranged x.1 y.1 ∧ Option.Rel Parsed.Rearranged x.2 y.2

variable {pts1 pts1' pts2 pts2' : List Parsed} {s1 s2 : Server}

theorem consideredStream_rearranged (s1 s2 : Server) (h : List.Forall₂ Parsed.Rearranged pts1 pts1') :
    List.Forall₂ Parsed.Rearranged (consideredStream s1 s2 pts1) (consideredStream s1 s2 pts1') := by
  unfold consideredStream
  split
  · exact List.forall₂_take 1 h
  · exact h

theorem zipLongest_rearranged (h1 : List.Forall₂ Parsed.Rearranged pts1 pts1')
    (h2 : List.Forall₂ Parsed.Rearranged pts2 pts2') :
    List.Forall₂ SamePosition (zipLongest pts1 pts2) (zipLongest pts1' pts2') := by
  induction h1 generalizing pts2 pts2' with
  | nil =>
      rw [zipLongest, zipLongest, List.forall₂_map_left_iff, List.forall₂_map_right_iff]
      exact h2.imp fun _ _ h => ⟨.none, .some h⟩
  | cons h _ ih =>
      cases h2 with
      | nil => exact .cons ⟨.some h, .none⟩ (ih .nil)
      | cons h' h2 => exact .cons ⟨.some h, .some h'⟩ (ih h2)

theorem comparePositions_congr {ps ps' : List (Option Parsed × Option Parsed)}
    (h : List.Forall₂ SamePosition ps ps') (htr1 : LetterFree s1.headerNameTranslation)
    (htr2 : LetterFree s2.headerNameTranslation) :
    comparePositions s1 s2 ps = comparePositions s1 s2 ps' := by
  induction h with
  | nil => rfl
  | cons h _ ih =>
      rw [comparePositions, comparePositions, comparePosition_congr h.1 h.2 htr1 htr2, ih]

/-- **The verdict does not depend** on the order of headers with different names, nor on the letter
case of names. -/
theorem categorizeDiscrepancy_rearranged (htr1 : LetterFree s1.headerNameTranslation)
    (htr2 : LetterFree s2.headerNameTranslation)
    (h1 : List.Forall₂ Parsed.Rearranged pts1 pts1')
    (h2 : List.Forall₂ Parsed.Rearranged pts2 pts2') :
    categorizeDiscrepancy pts1 pts2 s1 s2 = categorizeDiscrepancy pts1' pts2' s1 s2 :=
  comparePositions_congr
    (zipLongest_rearranged (consideredStream_rearranged s1 s2 h1)
      (consideredStream_rearranged s1 s2 h2)) htr1 htr2

/-- A server that joins headers and writes `_` for `-`. -/
def joiningDashServer : Server :=
  { plainServer with headerNameTranslation := dashTranslation, joinsDuplicateHeaders := true }

/-- A request with these headers. -/
def getRequest (headers : List Header) : HTTPRequest :=
  ⟨bytes "GET", bytes "/", headers, [], bytes "1.1"⟩

/-- Requests that differ in the order and the case of `X-A` and `Host`. -/
theorem categorizeDiscrepancy_rearranged_dash :
    LetterFree plainServer.headerNameTranslation ∧
      LetterFree joiningDashServer.headerNameTranslation ∧
      categorizeDiscrepancy
          [.request (getRequest
            [(bytes "X-A", bytes "1"), (bytes "Host", bytes "2"), (bytes "x-a", bytes "3")])]
          [.request (getRequest [(bytes "host", bytes "2"), (bytes "x_a", bytes "13")])]
          plainServer joiningDashServer =
        categorizeDiscrepancy
          [.request (getRequest
            [(bytes "HOST", bytes "2"), (bytes "X-A", bytes "1"), (bytes "x-a", bytes "3")])]
          [.request (getRequest [(bytes "host", bytes "2"), (bytes "x_a", bytes "13")])]
          plainServer joiningDashServer := by
  have hplain : LetterFree plainServer.headerNameTranslation := by decide
  have hdash : LetterFree joiningDashServer.headerNameTranslation := by decide +kernel
  have hswap : Rearranged
      [(bytes "X-A", bytes "1"), (bytes "Host", bytes "2"), (bytes "x-a", bytes "3")]
      [(bytes "Host", bytes "2"), (bytes "X-A", bytes "1"), (bytes "x-a", bytes "3")] :=
    rearranged_swap [] _ (by decide)
  have hrecase : Rearranged
      [(bytes "Host", bytes "2"), (bytes "X-A", bytes "1"), (bytes "x-a", bytes "3")]
      [(bytes "HOST", bytes "2"), (bytes "X-A", bytes "1"), (bytes "x-a", bytes "3")] :=
    rearranged_recase [] _ (by decide) rfl
  have hfirst : (getRequest
      [(bytes "X-A", bytes "1"), (bytes "Host", bytes "2"), (bytes "x-a", bytes "3")]).Rearranged
      (getRequest
        [(bytes "HOST", bytes "2"), (bytes "X-A", bytes "1"), (bytes "x-a", bytes "3")]) :=
    ⟨rfl, rfl, rfl, rfl, fun name => (hswap name).trans (hrecase name), by decide⟩
  have hsecond (r : HTTPRequest) : r.Rearranged r :=
    ⟨rfl, rfl, rfl, rfl, fun _ => rfl, rfl⟩
  exact ⟨hplain, hdash, categorizeDiscrepancy_rearranged hplain hdash (.cons (.request hfirst) .nil)
    (.cons (.request (hsecond _)) .nil)⟩

end HttpGarden
