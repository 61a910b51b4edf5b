import HttpGarden.Hpack.Field

/-!
# HttpGarden.Hpack.State

`hpack.py`: **`HPACKState`**, the dynamic table of a connection and the decoding of
field blocks with it.

A method that mutates the state returns the new one. A call that raises leaves the
state half-changed in the source; what is modelled is which calls return.
-/

namespace HttpGarden.Hpack

open Lib

/-- A name and a value. -/
abbrev Header := Bytes × Bytes

/-- `STATIC_TABLE` -/
def staticTable : List Header :=
  [(bytes ":authority", bytes ""), (bytes ":method", bytes "GET"), (bytes ":method", bytes "POST"),
    (bytes ":path", bytes "/"), (bytes ":path", bytes "/index.html"),
    (bytes ":scheme", bytes "http"), (bytes ":scheme", bytes "https"),
    (bytes ":status", bytes "200"), (bytes ":status", bytes "204"), (bytes ":status", bytes "206"),
    (bytes ":status", bytes "304"), (bytes ":status", bytes "400"), (bytes ":status", bytes "404"),
    (bytes ":status", bytes "500"), (bytes "accept-charset", bytes ""),
    (bytes "accept-encoding", bytes "gzip, deflate"), (bytes "accept-language", bytes ""),
    (bytes "accept-ranges", bytes ""), (bytes "accept", bytes ""),
    (bytes "access-control-allow-origin", bytes ""), (bytes "age", bytes ""),
    (bytes "allow", bytes ""), (bytes "authorization", bytes ""), (bytes "cache-control", bytes ""),
    (bytes "content-disposition", bytes ""), (bytes "content-encoding", bytes ""),
    (bytes "content-language", bytes ""), (bytes "content-length", bytes ""),
    (bytes "content-location", bytes ""), (bytes "content-range", bytes ""),
    (bytes "content-type", bytes ""), (bytes "cookie", bytes ""), (bytes "date", bytes ""),
    (bytes "etag", bytes ""), (bytes "expect", bytes ""), (bytes "expires", bytes ""),
    (bytes "from", bytes ""), (bytes "host", bytes ""), (bytes "if-match", bytes ""),
    (bytes "if-modified-since", bytes ""), (bytes "if-none-match", bytes ""),
    (bytes "if-range", bytes ""), (bytes "if-unmodified-since", bytes ""),
    (bytes "last-modified", bytes ""), (bytes "link", bytes ""), (bytes "location", bytes ""),
    (bytes "max-forwards", bytes ""), (bytes "proxy-authenticate", bytes ""),
    (bytes "proxy-authorization", bytes ""), (bytes "range", bytes ""), (bytes "referer", bytes ""),
    (bytes "refresh", bytes ""), (bytes "retry-after", bytes ""), (bytes "server", bytes ""),
    (bytes "set-cookie", bytes ""), (bytes "strict-transport-security", bytes ""),
    (bytes "transfer-encoding", bytes ""), (bytes "user-agent", bytes ""), (bytes "vary", bytes ""),
    (bytes "via", bytes ""), (bytes "www-authenticate", bytes "")]

/-- The state of a decoder: the dynamic table, newest entry first, and what bounds it. -/
structure HPACKState where
  tableCapacity : Int := 4096
  maxTableCapacity : Int := 4096
  dynamicTable : List Header := []
  deriving Repr, DecidableEq

/-- What an entry counts for in `table_size`. -/
def entrySize (h : Header) : Nat := h.1.length + h.2.length + 32

namespace HPACKState

/-- `table_size` -/
def tableSize (self : HPACKState) : Nat := (self.dynamicTable.map entrySize).sum

/-- `__post_init__` -/
def postInit (self : HPACKState) : Except PyError Unit :=
  if 0 ≤ (self.tableSize : Int) ∧ self.tableSize ≤ self.tableCapacity ∧
      self.tableCapacity ≤ self.maxTableCapacity then .ok ()
  else .error .assertionError

/-- The `while` loop; `pop` takes the entry on the right and raises on an empty deque. -/
def maybeEvictFromTable (self : HPACKState) : Except PyError HPACKState :=
  if self.tableSize > self.tableCapacity then
    match _h : self.dynamicTable with
    | [] => .error (.indexError "pop from an empty deque")
    | h :: t => maybeEvictFromTable { self with dynamicTable := (h :: t).dropLast }
  else .ok self
termination_by self.dynamicTable.length
decreasing_by
  rw [_h, List.length_dropLast]
  exact Nat.lt_succ_self _

/-- `add_header_to_dynamic_table` -/
def addHeaderToDynamicTable (self : HPACKState) (header : Header) : Except PyError HPACKState :=
  maybeEvictFromTable { self with dynamicTable := header :: self.dynamicTable }

/-- `get_header`: the static table comes first, then the dynamic one. Indices begin at 1. -/
def getHeader (self : HPACKState) (index : Int) : Except PyError Header :=
  if ¬ index > 0 then .error .assertionError
  else
    let i := (index - 1).toNat
    match staticTable[i]? with
    | some header => .ok header
    | none =>
      match self.dynamicTable[i - staticTable.length]? with
      | some header => .ok header
      | none => .error .assertionError

/-- `get_header_name` -/
def getHeaderName (self : HPACKState) (index : Int) : Except PyError Bytes := do
  return (← self.getHeader index).1

/-- `update_table_capacity`. The new capacity is checked when it is in place. -/
def updateTableCapacity (self : HPACKState) (val : Int) : Except PyError HPACKState := do
  let self ← maybeEvictFromTable { self with tableCapacity := val }
  self.postInit
  return self

/-- The body of the loop in `process_field_block`, on the state and the headers so
far. -/
def processField (acc : HPACKState × List Header) (field : HPACKField) :
    Except PyError (HPACKState × List Header) := do
  let (self, result) := acc
  match field with
  | .indexed index => return (self, result ++ [← self.getHeader index.val])
  | .literal key val prop =>
    let header := (key.data, val.data)
    if prop = .cached then
      return (← self.addHeaderToDynamicTable header, result ++ [header])
    return (self, result ++ [header])
  | .partialIndexed prop index val =>
    let result := result ++ [(← self.getHeaderName index.val, val.data)]
    if prop = .cached then
      -- the name is looked up a second time, still before the insertion
      let header := (← self.getHeaderName index.val, val.data)
      return (← self.addHeaderToDynamicTable header, result)
    return (self, result)
  | .dynamicTableSizeUpdate size => return (← self.updateTableCapacity size.val, result)

/-- `process_field_block` -/
def processFieldBlock (self : HPACKState) (fieldBlock : List HPACKField) :
    Except PyError (HPACKState × List Header) :=
  fieldBlock.foldlM processField (self, [])

end HPACKState

end HttpGarden.Hpack
