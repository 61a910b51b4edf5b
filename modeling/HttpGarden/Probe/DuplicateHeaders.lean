import HttpGarden.Diff.Joining

/-!
# HttpGarden.Probe.DuplicateHeaders

Does a server **join duplicate headers**, and with what? `probe_quirks.py` sends one request with
the values `a` and `b` of one header, and deduces both from what comes back.

The deduction is right about servers that join. A server that keeps one of the values looks like
one that joins with nothing between them; `joined_eq_reduce_iff` says for which values that makes
no difference.
-/

namespace HttpGarden

open Lib

/-! ### The probes -/

/-- A server as it is probed. What `parsed_roundtrip` returns may differ from one connection to
the next. -/
structure ProbedServer (ε : Type) where
  name : String
  parsedRoundtrip : Nat → List Bytes → Except ε (List Parsed)

/-- How a probe fails: by its own `ValueError`, or by an exception of the roundtrip. -/
inductive ProbeError (ε : Type)
  | valueError (msg : String)
  | raised (e : ε)

variable {ε : Type}

/-- The request with a repeated header. -/
def duplicateProbe : Bytes := bytes "GET / HTTP/1.1\r\nHost: a\r\nTest: a\r\nTest: b\r\n\r\n"

/-- What both probes start with: the request that the server reports on the connection `n`. -/
def probeDuplicate (server : ProbedServer ε) (n : Nat) : Except (ProbeError ε) HTTPRequest :=
  match server.parsedRoundtrip n [duplicateProbe] with
  | .error e => .error (.raised e)
  | .ok [.request r] => .ok r
  | .ok _ =>
    .error (.valueError ("Server " ++ server.name ++ " rejected request with duplicate header!"))

/-- `joins_duplicate_headers`. -/
def joinsDuplicateHeaders (server : ProbedServer ε) (n : Nat) : Except (ProbeError ε) Bool := do
  let r ← probeDuplicate server n
  return r.headers.length == (removeRequestHeader r (bytes "Test")).headers.length + 1

/-- `get_duplicate_header_joiner`. -/
def getDuplicateHeaderJoiner (server : ProbedServer ε) (n : Nat) : Except (ProbeError ε) Bytes := do
  let r ← probeDuplicate server n
  match r.headers.find? fun h => lower h.1 == bytes "test" with
  | some h => .ok (rstrip (· == 98) (lstrip (· == 97) h.2))
  | none => .error (.valueError "Couldn't find the joiner!")

/-! ### What servers do with repeated headers -/

/-- How a server reduces the values of a header to one. -/
inductive DuplicatePolicy
  | join (j : Bytes)
  | keepFirst
  | keepLast
  deriving Repr, DecidableEq

namespace DuplicatePolicy

/-- The one value that is left of `values`. -/
def reduce : DuplicatePolicy → List Bytes → Bytes
  | join j, values => j.intercalate values
  | keepFirst, values => values.headD []
  | keepLast, values => values.getLastD []

/-- The joiner can be told from the values `a` and `b` around it. -/
def Probeable : DuplicatePolicy → Prop
  | join j => j.head? ≠ some 97 ∧ j.getLast? ≠ some 98
  | _ => True

/-- The values that the policy drops are empty. -/
def DropsNothing : DuplicatePolicy → List Bytes → Prop
  | join _, _ => True
  | keepFirst, values => ∀ v ∈ values.tail, v = []
  | keepLast, values => ∀ v ∈ values.dropLast, v = []

end DuplicatePolicy

/-- The server reduces the two values of the probe to one. -/
def ProbedServer.Follows (server : ProbedServer ε) (policy : DuplicatePolicy) : Prop :=
  ∀ n r, server.parsedRoundtrip n [duplicateProbe] = .ok [.request r] →
    valuesOf (bytes "test") r.headers = [policy.reduce [bytes "a", bytes "b"]]

/-! ### What the probes deduce -/

/-- The joiner that is deduced. -/
def DuplicatePolicy.joiner : DuplicatePolicy → Bytes
  | join j => j
  | _ => []

/-- What is left of the reduced value `a…b` is what stands between. -/
theorem strip_reduce {policy : DuplicatePolicy} (h : policy.Probeable) :
    rstrip (· == 98) (lstrip (· == 97) (policy.reduce [bytes "a", bytes "b"])) = policy.joiner := by
  cases policy with
  | keepFirst => decide
  | keepLast => decide
  | join j =>
      obtain ⟨hhead, hlast⟩ := h
      have hreduce : (DuplicatePolicy.join j).reduce [bytes "a", bytes "b"] = 97 :: (j ++ [98]) := by
        have ha : bytes "a" = [97] := by decide
        have hb : bytes "b" = [98] := by decide
        rw [ha, hb]
        simp [DuplicatePolicy.reduce, List.intercalate]
      have hl : lstrip (· == 97) (97 :: (j ++ [98])) = j ++ [98] := by
        rw [lstrip, List.dropWhile_cons_of_pos (by rfl)]
        cases j with
        | nil => rfl
        | cons c j =>
            refine List.dropWhile_cons_of_neg fun hc => hhead ?_
            rw [eq_of_beq hc]
            rfl
      rw [hreduce, hl, rstrip, List.reverse_append]
      show (List.dropWhile (· == 98) (98 :: j.reverse)).reverse = j
      rw [List.dropWhile_cons_of_pos (by rfl)]
      rw [← List.head?_reverse] at hlast
      cases hj : j.reverse with
      | nil => exact (List.reverse_eq_nil_iff.mp hj).symm
      | cons c t =>
          rw [hj] at hlast
          rw [List.dropWhile_cons_of_neg, ← hj, List.reverse_reverse]
          intro hc
          rw [eq_of_beq hc] at hlast
          exact hlast rfl

variable {server : ProbedServer ε} {policy : DuplicatePolicy}

theorem follows_probe (h : server.Follows policy) {n : Nat} {r : HTTPRequest}
    (hr : probeDuplicate server n = .ok r) :
    valuesOf (bytes "test") r.headers = [policy.reduce [bytes "a", bytes "b"]] := by
  unfold probeDuplicate at hr
  split at hr
  · cases hr
  · next r' hround =>
      cases hr
      exact h n r hround
  · cases hr

/-- A server that leaves one value is taken for one that joins, whichever value it leaves. -/
theorem joinsDuplicateHeaders_of_follows (h : server.Follows policy) {n : Nat} {b : Bool}
    (hb : joinsDuplicateHeaders server n = .ok b) : b = true := by
  obtain ⟨r, hr, hlength⟩ := bind_eq_ok.mp hb
  have hone := congrArg List.length (follows_probe h hr)
  rw [valuesOf, List.length_map, List.length_singleton] at hone
  have htest : lower (bytes "Test") = bytes "test" := by decide
  have hcount : r.headers.length = (r.headers.filter fun h => lower h.1 == bytes "test").length +
      (r.headers.filter fun h => lower h.1 != bytes "test").length :=
    List.length_eq_length_filter_add fun h : Header => lower h.1 == bytes "test"
  rw [hone] at hcount
  cases hlength
  rw [removeRequestHeader, htest, hcount, Nat.add_comm, beq_self_eq_true]

theorem getDuplicateHeaderJoiner_of_follows (hp : policy.Probeable) (h : server.Follows policy)
    {n : Nat} {J : Bytes} (hJ : getDuplicateHeaderJoiner server n = .ok J) : J = policy.joiner := by
  obtain ⟨r, hr, hfind⟩ := bind_eq_ok.mp hJ
  have hvalues := follows_probe h hr
  rw [valuesOf, List.map_eq_singleton_iff] at hvalues
  obtain ⟨header, hfilter, hvalue⟩ := hvalues
  have hhead : r.headers.find? (fun h => lower h.1 == bytes "test") = some header := by
    rw [← List.head?_filter, hfilter]
    rfl
  rw [hhead] at hfind
  cases hfind
  rw [hvalue, strip_reduce hp]

/-! ### What the normalizer computes -/

/-- The value that `join_duplicate_headers` computes for the headers of one name. -/
theorem valuesOf_joinDuplicateHeaders (r : HTTPRequest) (J : Bytes) {name : Bytes}
    (hne : valuesOf name r.headers ≠ []) :
    valuesOf name (joinDuplicateHeaders r J).headers =
      [J.intercalate (valuesOf name r.headers)] := by
  have hlower : (r.headers.map lowerName).filter (fun h => lower h.1 == name) =
      (valuesOf name r.headers).map (name, ·) := by
    rw [← filter_map_lowerName]
    refine List.filter_congr fun h hh => ?_
    obtain ⟨h', -, rfl⟩ := List.mem_map.mp hh
    rw [lowerName, lower_lower]
  obtain ⟨v, values, hvalues⟩ := List.exists_cons_of_ne_nil hne
  have hkeys : ∀ e ∈ values.map (name, ·), e.1 = name := List.forall_mem_map.mpr fun _ _ => rfl
  have hsnd : (values.map (name, ·)).map Prod.snd = values := by
    rw [List.map_map]
    exact List.map_id _
  rw [joinDuplicateHeaders_eq, valuesOf, ← groupWith_filter fun x => lower x == name, hlower,
    hvalues, List.map_cons, groupWith_of_eq_key hkeys, hsnd, foldl_joinWith]
  rfl

/-- With nothing between them, the values are one of them if the others are empty. -/
theorem intercalate_joiner_eq_reduce_iff (policy : DuplicatePolicy) {values : List Bytes}
    (hne : values ≠ []) :
    policy.joiner.intercalate values = policy.reduce values ↔ policy.DropsNothing values := by
  have hflatten (values : List Bytes) : List.intercalate [] values = values.flatten := by
    induction values with
    | nil => rfl
    | cons v values ih =>
        rw [← List.append_nil v, intercalate_cons_append, List.append_nil, List.flatten_cons, ← ih]
        cases values <;> simp [List.intercalate]
  cases policy with
  | join j => exact iff_of_true rfl trivial
  | keepFirst =>
      obtain ⟨v, values, rfl⟩ := List.exists_cons_of_ne_nil hne
      show List.intercalate [] (v :: values) = v ↔ ∀ w ∈ values, w = []
      rw [hflatten, List.flatten_cons, List.append_right_eq_self, List.flatten_eq_nil_iff]
  | keepLast =>
      obtain ⟨values, v, rfl⟩ := (List.eq_nil_or_concat values).resolve_left hne
      show List.intercalate [] (values.concat v) = (values.concat v).getLastD [] ↔
        ∀ w ∈ (values.concat v).dropLast, w = []
      rw [hflatten, List.concat_eq_append, List.flatten_append, List.flatten_singleton,
        List.dropLast_concat, List.getLastD_concat, List.append_left_eq_self, List.flatten_eq_nil_iff]

/-- **The normalizer and the server** make the same of the values of a header exactly if the
server joins them, or drops none but empty ones. -/
theorem joined_eq_reduce_iff (hp : policy.Probeable) (h : server.Follows policy) {n : Nat}
    {J : Bytes} (hJ : getDuplicateHeaderJoiner server n = .ok J) {r : HTTPRequest} {name : Bytes}
    (hne : valuesOf name r.headers ≠ []) :
    valuesOf name (joinDuplicateHeaders r J).headers = [policy.reduce (valuesOf name r.headers)] ↔
      policy.DropsNothing (valuesOf name r.headers) := by
  rw [valuesOf_joinDuplicateHeaders r J hne, getDuplicateHeaderJoiner_of_follows hp h hJ,
    List.cons.injEq, and_iff_left rfl]
  exact intercalate_joiner_eq_reduce_iff policy hne

/-- A request with these values of the header `test`. -/
def testRequest (values : List Bytes) : HTTPRequest :=
  ⟨bytes "GET", bytes "/", values.map (bytes "test", ·), [], bytes "1.1"⟩

/-- A server that reports requests as the policy leaves them. -/
def reducingServer (policy : DuplicatePolicy) : ProbedServer PyError :=
  ⟨"reducing", fun _ _ => .ok [.request (testRequest [policy.reduce [bytes "a", bytes "b"]])]⟩

theorem reducingServer_follows (policy : DuplicatePolicy) :
    (reducingServer policy).Follows policy := by
  intro n r h
  cases h
  have hname : (lower (bytes "test") == bytes "test") = true := by decide
  simp [testRequest, valuesOf, hname]

/-- A server that joins with a comma and a blank. -/
theorem joined_eq_reduce_iff_comma :
    getDuplicateHeaderJoiner (reducingServer (.join (bytes ", "))) 0 = .ok (bytes ", ") ∧
      valuesOf (bytes "test") (testRequest [bytes "1", bytes "2"]).headers ≠ [] ∧
      (valuesOf (bytes "test")
          (joinDuplicateHeaders (testRequest [bytes "1", bytes "2"]) (bytes ", ")).headers =
          [(DuplicatePolicy.join (bytes ", ")).reduce
            (valuesOf (bytes "test") (testRequest [bytes "1", bytes "2"]).headers)] ↔
        (DuplicatePolicy.join (bytes ", ")).DropsNothing
          (valuesOf (bytes "test") (testRequest [bytes "1", bytes "2"]).headers)) := by
  have hprobe : getDuplicateHeaderJoiner (reducingServer (.join (bytes ", "))) 0 =
      .ok (bytes ", ") := by rfl
  have hne : valuesOf (bytes "test") (testRequest [bytes "1", bytes "2"]).headers ≠ [] := by
    decide
  have hprobeable : (DuplicatePolicy.join (bytes ", ")).Probeable :=
    ⟨by decide, by decide⟩
  exact ⟨hprobe, hne, joined_eq_reduce_iff hprobeable (reducingServer_follows _) hprobe hne⟩

/-- A server that keeps the first value is taken for one that joins with nothing, and then the
values `1` and `2` are compared as `12`. -/
theorem not_joined_eq_reduce_keepFirst :
    ¬ ∀ (server : ProbedServer PyError) (policy : DuplicatePolicy), policy.Probeable →
      server.Follows policy → ∀ n J, joinsDuplicateHeaders server n = .ok true →
      getDuplicateHeaderJoiner server n = .ok J → ∀ (r : HTTPRequest) (name : Bytes),
      valuesOf name r.headers ≠ [] →
      valuesOf name (joinDuplicateHeaders r J).headers =
        [policy.reduce (valuesOf name r.headers)] := by
  intro h
  have hjoined := h (reducingServer .keepFirst) .keepFirst trivial (reducingServer_follows _) 0 []
    (by rfl) (by rfl) (testRequest [bytes "1", bytes "2"]) (bytes "test") (by decide)
  revert hjoined
  decide

end HttpGarden
