import HttpGarden.Http1.Parse

/-!
# HttpGarden.Http1.Stream

**Runs of the HTTP/1 parsers** as relations: what one request is parsed from, what the
framing headers come out as, and the iterations of the loop over a stream.
-/

namespace HttpGarden

open Lib Pattern

variable {gunzip : Bytes → Except GzipError Bytes}

/-! ### One request -/

/-- The three parts of a request. -/
theorem parseRequest_eq_ok {raw rest : Bytes} {r : HTTPRequest} :
    parseRequest gunzip raw = .ok (r, rest) ↔ ∃ version rest₁ rest₂,
      requestLine.first raw = some ((r.method, r.uri, version), rest₁) ∧
      r.version = version.getD (bytes "0.9") ∧
      parseHeaders rest₁ = .ok (r.headers, rest₂) ∧
      parseBody gunzip r.headers rest₂ false = .ok (r.body, rest) := by
  unfold parseRequest
  constructor
  · intro h
    cases hf : requestLine.first raw with
    | none =>
        rw [hf] at h
        cases h
    | some m =>
        obtain ⟨⟨method, uri, version⟩, rest₁⟩ := m
        rw [hf] at h
        obtain ⟨⟨headers, rest₂⟩, hheaders, h⟩ := bind_eq_ok.mp h
        obtain ⟨⟨body, rest₃⟩, hbody, h⟩ := bind_eq_ok.mp h
        cases h
        exact ⟨version, rest₁, rest₂, rfl, rfl, hheaders, hbody⟩
  · intro ⟨version, rest₁, rest₂, hf, hversion, hheaders, hbody⟩
    rw [hf]
    refine bind_eq_ok.mpr ⟨_, hheaders, bind_eq_ok.mpr ⟨_, hbody, ?_⟩⟩
    rw [← hversion]
    rfl

/-! ### Framing headers -/

/-- The values under a name, as they are compared. -/
def framingValues (name : Bytes) (headers : List Header) : List Bytes :=
  (headers.filter fun h => lower h.1 == name).map fun h => strip (· == 44) (lower h.2)

theorem framingValues_cons (name : Bytes) (h : Header) (headers : List Header) :
    framingValues name (h :: headers) =
      (if lower h.1 = name then [strip (· == 44) (lower h.2)] else []) ++
        framingValues name headers := by
  by_cases hn : lower h.1 = name <;> simp [framingValues, hn]

/-- The length after one header. -/
def scanLength (cl : Option Nat) (h : Header) : Except PyError (Option Nat) :=
  if lower h.1 = bytes "content-length" then
    if !isAscii h.2 || !isDigit h.2 then .error (.valueError "Invalid Content-Length")
    else some <$> intOfDigits h.2
  else .ok cl

/-- One header sets the length or adds its value to a list. -/
theorem scanHeader_eq (f : Framing) (h : Header) :
    scanHeader f h = (scanLength f.cl h).map fun cl =>
      ⟨cl, f.teValues ++ framingValues (bytes "transfer-encoding") [h],
        f.ceValues ++ framingValues (bytes "content-encoding") [h]⟩ := by
  have hnil (name : Bytes) : framingValues name [] = [] := rfl
  have hrest (g : Framing) :
      (let g := if lower h.1 = bytes "transfer-encoding" then
          { g with teValues := g.teValues ++ [strip (· == 44) (lower h.2)] } else g
        if lower h.1 = bytes "content-encoding" then
          return { g with ceValues := g.ceValues ++ [strip (· == 44) (lower h.2)] }
        else return g : Except PyError Framing) =
      .ok ⟨g.cl, g.teValues ++ framingValues (bytes "transfer-encoding") [h],
        g.ceValues ++ framingValues (bytes "content-encoding") [h]⟩ := by
    have hcases (P Q : Prop) [Decidable P] [Decidable Q] (v : Bytes) :
        (let g := if P then { g with teValues := g.teValues ++ [v] } else g
          if Q then return { g with ceValues := g.ceValues ++ [v] } else return g :
            Except PyError Framing) =
        .ok ⟨g.cl, g.teValues ++ ((if P then [v] else []) ++ []),
          g.ceValues ++ ((if Q then [v] else []) ++ [])⟩ := by
      by_cases hP : P <;> by_cases hQ : Q <;> simp [hP, hQ]
    rw [framingValues_cons, framingValues_cons, hnil, hnil]
    exact hcases _ _ _
  unfold scanHeader scanLength
  by_cases hcl : lower h.1 = bytes "content-length"
  · rw [if_pos hcl, if_pos hcl]
    by_cases hv : (!isAscii h.2 || !isDigit h.2) = true
    · rw [if_pos hv, if_pos hv]
      rfl
    · rw [if_neg hv, if_neg hv]
      cases hn : intOfDigits h.2 with
      | error e => rfl
      | ok n => exact hrest { f with cl := some n }
  · rw [if_neg hcl, if_neg hcl]
    exact hrest f

theorem foldlM_scanHeader_values {headers : List Header} {f g : Framing}
    (h : headers.foldlM scanHeader g = .ok f) :
    f.teValues = g.teValues ++ framingValues (bytes "transfer-encoding") headers ∧
      f.ceValues = g.ceValues ++ framingValues (bytes "content-encoding") headers := by
  induction headers generalizing g with
  | nil =>
      cases h
      exact ⟨(List.append_nil _).symm, (List.append_nil _).symm⟩
  | cons k headers ih =>
      rw [List.foldlM_cons, scanHeader_eq] at h
      obtain ⟨g', hg', hrest⟩ := bind_eq_ok.mp h
      obtain ⟨cl, -, rfl⟩ := map_eq_ok.mp hg'
      have hcons (name : Bytes) : framingValues name (k :: headers) =
          framingValues name [k] ++ framingValues name headers := by
        rw [framingValues_cons, framingValues_cons name k [], List.append_assoc]
        rfl
      rw [hcons, hcons, ← List.append_assoc, ← List.append_assoc]
      exact ih hrest

/-- The values of the framing headers, in the order of the headers. -/
theorem scanHeaders_values {headers : List Header} {f : Framing} (h : scanHeaders headers = .ok f) :
    f.teValues = framingValues (bytes "transfer-encoding") headers ∧
      f.ceValues = framingValues (bytes "content-encoding") headers :=
  foldlM_scanHeader_values h

/-! ### The loop over a stream -/

/-- The iterations of the loop in `parse_request_stream`. -/
inductive RequestStream (gunzip : Bytes → Except GzipError Bytes) :
    Bytes → List HTTPRequest → Bytes → Prop
  | done : RequestStream gunzip [] [] []
  | stop {s : Bytes} {e : PyError} (hs : s ≠ []) (h : parseRequest gunzip s = .error e)
      (he : e.isValueError = true) : RequestStream gunzip s [] s
  | more {s s' rest : Bytes} {r : HTTPRequest} {rs : List HTTPRequest}
      (h : parseRequest gunzip s = .ok (r, s')) (hs : RequestStream gunzip s' rs rest) :
      RequestStream gunzip s (r :: rs) rest

theorem parseRequestStream_nil : parseRequestStream gunzip [] = .ok ([], []) := by
  rw [parseRequestStream, if_pos rfl]

theorem ne_nil_of_parseRequest {s s' : Bytes} {r : HTTPRequest}
    (h : parseRequest gunzip s = .ok (r, s')) : s ≠ [] := by
  intro hs
  have := parseRequest_length gunzip h
  rw [hs] at this
  exact Nat.not_lt_zero _ this

theorem parseRequestStream_of_ok {s s' : Bytes} {r : HTTPRequest}
    (h : parseRequest gunzip s = .ok (r, s')) :
    parseRequestStream gunzip s =
      (parseRequestStream gunzip s').map fun t => (r :: t.1, t.2) := by
  rw [parseRequestStream, if_neg (ne_nil_of_parseRequest h)]
  split
  · rename_i r₁ s₁ h₁
    rw [h, Except.ok.injEq, Prod.mk.injEq] at h₁
    rw [← h₁.1, ← h₁.2]
    cases parseRequestStream gunzip s' <;> rfl
  · rename_i e he
    rw [h] at he
    cases he

theorem parseRequestStream_of_error {s : Bytes} {e : PyError} (hs : s ≠ [])
    (h : parseRequest gunzip s = .error e) :
    parseRequestStream gunzip s = if e.isValueError then .ok ([], s) else .error e := by
  rw [parseRequestStream, if_neg hs]
  split
  · rename_i r₁ s₁ h₁
    rw [h] at h₁
    cases h₁
  · rename_i e' he
    rw [h, Except.error.injEq] at he
    rw [he]

/-- **The loop** returns exactly what its iterations collect. -/
theorem parseRequestStream_eq_ok {s rest : Bytes} {rs : List HTTPRequest} :
    parseRequestStream gunzip s = .ok (rs, rest) ↔ RequestStream gunzip s rs rest := by
  refine ⟨fun h => ?_, fun h => ?_⟩
  · induction hn : s.length using Nat.strong_induction_on generalizing s rs with
    | _ n ih =>
        by_cases hs : s = []
        · rw [hs, parseRequestStream_nil, Except.ok.injEq, Prod.mk.injEq] at h
          rw [hs, ← h.1, ← h.2]
          exact .done
        · cases hr : parseRequest gunzip s with
          | ok t =>
              obtain ⟨r, s'⟩ := t
              rw [parseRequestStream_of_ok hr] at h
              obtain ⟨⟨rs', rest'⟩, hrest, hpair⟩ := map_eq_ok.mp h
              cases hpair
              exact .more hr (ih s'.length (hn ▸ parseRequest_length gunzip hr) hrest rfl)
          | error e =>
              rw [parseRequestStream_of_error hs hr] at h
              by_cases he : e.isValueError = true
              · rw [if_pos he] at h
                cases h
                exact .stop hs hr he
              · rw [if_neg he] at h
                cases h
  · induction h with
    | done => exact parseRequestStream_nil
    | stop hs h he => rw [parseRequestStream_of_error hs h, if_pos he]
    | more h _ ih => rw [parseRequestStream_of_ok h, ih]; rfl

end HttpGarden
