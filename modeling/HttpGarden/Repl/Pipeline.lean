import HttpGarden.Lib.Process
import HttpGarden.Diff.Heap

/-!
# HttpGarden.Repl.Pipeline

The **pipelines of the repl** (`repl.py`): what `main` does with the commands of one
pipeline, one after the other.

The value that is piped on is a bare list, and two of its readings overlap: the empty list is a
stream of bytes and a stream of results. `Result.producer` is kept by the model only. Nothing
below decides by it; it says whose `parsed_roundtrip` a stream came from.

What the network answers is not fixed: every connection has a number, and a server may answer
the same bytes differently on every one of them. The two readers of text (the escapes of
`payload` and the frame language of `h2frames`) are parameters, because no command looks into
what they read.
-/

namespace HttpGarden.Repl

open Lib

/-! ### The garden -/

/-- `Transducer`. -/
structure Transducer (ε : Type) where
  name : String
  unparsedRoundtrip : Nat → List Bytes → Except ε (List Bytes)

/-- `Origin`. A roundtrip is told the number of its connection. -/
structure Origin (ε : Type) extends Server where
  name : String
  allowsHttp2 : Bool
  parsedRoundtrip : Nat → List Bytes → Except ε (List Parsed)
  unparsedRoundtrip : Nat → List Bytes → Except ε (List Bytes)

/-- Why `payload` rejects a string. -/
inductive PayloadError
  | unicodeEncodeError
  | unicodeDecodeError
  deriving Repr, DecidableEq

/-- How `parse_h2frames_statement` fails: as intended, or by an exception of the frames. -/
inductive FramesError (ε : Type)
  | replParseError (e : String)
  | raised (e : ε)

/-- The running servers, under their names, and the readers of text. -/
structure Garden (ε : Type) where
  originDict : List (Origin ε)
  transducerDict : List (Transducer ε)
  nodup : (originDict.map (·.name)).Nodup
  unescapePayload : String → Except PayloadError Bytes
  parseH2FramesStatement : List String → Except (FramesError ε) (List Bytes)

/-! ### The value that is piped on -/

/-- A result stream, and the name of the server whose `parsed_roundtrip` returned it. -/
structure Result where
  producer : String
  pts : List Item
  deriving DecidableEq

/-- `cwd`. -/
inductive Cwd
  | none
  | bytes (data : List Bytes)
  | results (pts : List Result)
  deriving DecidableEq

namespace Cwd

/-- `is_byte_stream(cwd)`. -/
def byteStream? : Cwd → Option (List Bytes)
  | .bytes data => some data
  | .results [] => some []
  | _ => Option.none

/-- `is_request_response_stream(cwd)`. -/
def results? : Cwd → Option (List Result)
  | .results pts => some pts
  | .bytes [] => some []
  | _ => Option.none

end Cwd

/-- What lasts from one command to the next. -/
structure State where
  cwd : Cwd
  heap : Heap
  connections : Nat

/-- A server's name beside that of the producer of the stream it is paired with. -/
abbrev Pairing := String × String

/-- What a command prints, and the comparisons it makes. -/
inductive Event
  | message (text : String)
  | value (cwd : Cwd)
  | stream (data : List Bytes)
  | transducer (name : String)
  | result (label producer : String) (pts : List Parsed)
  | pieces (label : String) (pieces : List Bytes)
  | compared (row col : Pairing) (e : ErrorType)
  | grid (grid : Grid) (labels : List String)
  | clusters (clusters : List (List Pairing))
  deriving DecidableEq

/-- How `main` is left. -/
inductive Exit (ε : Type)
  | exited
  | keyError
  | raised (e : ε)

variable {ε : Type}

/-! ### Asking the servers -/

/-- `fanout`. The connections are made at the same time; the answers come in the order of the
servers. -/
def fanout (data : List Bytes) : List (Origin ε) → Nat → Heap → Except ε (List Result × Heap)
  | [], _, h => .ok ([], h)
  | server :: servers, n, h => do
    let pts ← server.parsedRoundtrip n data
    let (items, h) := allocStream pts h
    let (results, h) ← fanout data servers (n + 1) h
    .ok (⟨server.name, items⟩ :: results, h)

/-- `print_fanout`. -/
def printFanout (h : Heap) (fanoutResult : List Result) (serverNames : List String) : List Event :=
  (serverNames.zip fanoutResult).map fun (name, result) =>
    .result name result.producer (result.pts.map (·.view h))

/-- `unparsed_fanout`, with the names of the servers. -/
def unparsedFanout (data : List Bytes) :
    List (String × (Nat → List Bytes → Except ε (List Bytes))) → Nat →
      Except ε (List (String × List Bytes))
  | [], _ => .ok []
  | (name, unparsedRoundtrip) :: servers, n => do
    let pieces ← unparsedRoundtrip n data
    let results ← unparsedFanout data servers (n + 1)
    .ok ((name, pieces) :: results)

/-! ### Comparing the results -/

/-- A server with the result stream it is paired with. -/
abbrev Row (ε : Type) := Origin ε × Result

def Row.pairing (row : Row ε) : Pairing := (row.1.name, row.2.producer)

/-- The objects, and what has been recorded so far. -/
structure Log where
  heap : Heap
  out : List Event

/-- A call of `categorize_discrepancy`. -/
def Log.compare (row col : Row ε) (log : Log) : ErrorType × Log :=
  let (e, h) :=
    categorizeDiscrepancyIn log.heap row.2.pts col.2.pts row.1.toServer col.1.toServer
  (e, ⟨h, log.out ++ [.compared row.pairing col.pairing e]⟩)

/-! ### Commands -/

/-- The cases of the `match` in `main`. -/
inductive Command
  | empty
  | showPayload
  | payload (symbols : List String)
  | grid (symbols : List String)
  | cluster (symbols : List String)
  | transduce (symbols : List String)
  | fanout (symbols : List String)
  | h2fanout (symbols : List String)
  | unparsedFanout (symbols : List String)
  | unparsedTransducerFanout (symbols : List String)
  | h2frames (symbols : List String)
  | exit
  | invalid
  deriving Repr, DecidableEq

/-- Which case a command's tokens fall into. -/
def Command.ofTokens : List String → Command
  | [] => .empty
  | ["payload"] => .showPayload
  | "payload" :: symbols => .payload symbols
  | "grid" :: symbols => .grid symbols
  | "cluster" :: symbols => .cluster symbols
  | "transduce" :: symbols => .transduce symbols
  | "fanout" :: symbols => .fanout symbols
  | "h2fanout" :: symbols => .h2fanout symbols
  | "unparsed_fanout" :: symbols => .unparsedFanout symbols
  | "uf" :: symbols => .unparsedFanout symbols
  | "unparsed_transducer_fanout" :: symbols => .unparsedTransducerFanout symbols
  | "utf" :: symbols => .unparsedTransducerFanout symbols
  | "h2frames" :: symbols => .h2frames symbols
  | ["exit"] => .exit
  | ["quit"] => .exit
  | _ => .invalid

/-- A step of `main`: the events of one command, and the state after it. -/
abbrev Step (ε : Type) := Emits Event State (Exit ε)

namespace State

/-- A command that only prints. -/
def say (st : State) (out : List Event) : Step ε := ⟨out, .again st⟩

/-- What is printed when `cwd` is not a stream of bytes. -/
def expectsPayload (st : State) : Step ε :=
  st.say [.message "This command expects to have its input piped in from `payload` or `transduce`."]

end State

namespace Garden

variable (g : Garden ε)

/-- `ORIGIN_DICT.get(s)`. -/
def origin? (s : String) : Option (Origin ε) := g.originDict.find? (·.name == s)

/-- `TRANSDUCER_DICT.get(s)`. -/
def transducer? (s : String) : Option (Transducer ε) := g.transducerDict.find? (·.name == s)

/-- `list(ORIGIN_DICT.keys())`, if there are no symbols. -/
def originNames (symbols : List String) : List String :=
  if symbols = [] then g.originDict.map (·.name) else symbols

/-- `list(TRANSDUCER_DICT.keys())`, if there are no symbols. -/
def transducerNames (symbols : List String) : List String :=
  if symbols = [] then g.transducerDict.map (·.name) else symbols

/-- `[ORIGIN_DICT[s] for s in symbols]`. -/
def origins? (symbols : List String) : Option (List (Origin ε)) := symbols.mapM g.origin?

/-- `[TRANSDUCER_DICT[s] for s in symbols]`. -/
def transducers? (symbols : List String) : Option (List (Transducer ε)) :=
  symbols.mapM g.transducer?

/-- `s in ORIGIN_DICT`. -/
def isOrigin (s : String) : Bool := (g.origin? s).isSome

/-- `s in TRANSDUCER_DICT`. -/
def isTransducer (s : String) : Bool := (g.transducer? s).isSome

/-- The name for which `validate_server_names` returns `False`. -/
def invalidServerName? (symbols : List String) : Option String :=
  symbols.find? fun s => !g.isOrigin s && !g.isTransducer s

/-- The name for which `validate_transducer_names` returns `False`. -/
def invalidTransducerName? (symbols : List String) : Option String :=
  symbols.find? fun s => !g.isTransducer s

/-- The name for which `validate_origin_names`, which no command calls, returns `False`. -/
def invalidOriginName? (symbols : List String) : Option String :=
  symbols.find? fun s => !g.isOrigin s

/-- `k` with the origins of these names. A transducer's name passes `validate_server_names`, and
then `ORIGIN_DICT` does not have it. -/
def withOrigins (st : State) (symbols : List String) (k : List (Origin ε) → Step ε) : Step ε :=
  match g.invalidServerName? symbols with
  | some s => st.say [.message s!"Invalid server name: {s}"]
  | none =>
    match g.origins? symbols with
    | none => .leave .keyError
    | some servers => k servers

/-- `payload` with symbols. -/
def payload (st : State) (symbols : List String) : Step ε :=
  match symbols.mapM g.unescapePayload with
  | .ok data => .again { st with cwd := .bytes data }
  | .error .unicodeEncodeError =>
    st.say [.message ("Couldn't encode the payload to latin1. If you're using multibyte " ++
      "characters, please use escape sequences (e.g. `\\xff`) instead.")]
  | .error .unicodeDecodeError =>
    st.say [.message "Couldn't Unicode escape the payload. Did you forget to quote it?"]

/-- `grid` and `cluster`, which differ in how they `report` on the servers and the results. -/
def consume (st : State) (symbols : List String)
    (report : List Result → List (Origin ε) → Log → Log) : Step ε :=
  match st.cwd.results? with
  | none => st.say [.message "This command expects to have its input piped in from `fanout`."]
  | some pts =>
    let symbols := g.originNames symbols
    g.withOrigins { st with cwd := .none } symbols fun servers =>
      -- there are no symbols if no server is running, and then nothing is reported
      if symbols = [] then .again { st with cwd := .none }
      else
        let log := report pts servers ⟨st.heap, []⟩
        ⟨log.out, .again { st with cwd := .none, heap := log.heap }⟩

/-- `print_grid(generate_grid(cwd, servers), symbols)`. -/
def reportGrid (pts : List Result) (servers : List (Origin ε)) (log : Log) : Log :=
  let (grid, log) := generateGrid Log.compare (servers.zip pts) log
  ⟨log.heap, log.out ++ [.grid grid (servers.map (·.name))]⟩

/-- `print_clusters(generate_clusters(cwd, servers))`. -/
def reportClusters (pts : List Result) (servers : List (Origin ε)) (log : Log) : Log :=
  let (clusters, log) := generateClusters Log.compare (servers.zip pts) log
  ⟨log.heap, log.out ++ [.clusters (clusters.map (·.map Row.pairing))]⟩

/-- The loop of `transduce`. Each transducer is looked up when its turn comes. -/
def transduceAll : List String → List Bytes → State → Step ε
  | [], _, st => .again st
  | name :: symbols, data, st =>
    match g.transducer? name with
    | none => .leave .keyError
    | some transducer =>
      match transducer.unparsedRoundtrip st.connections data with
      | .error e => .leave (.raised e)
      | .ok data =>
        Emits.andThen ⟨[.transducer transducer.name, .stream data],
            .again { st with cwd := .bytes data, connections := st.connections + 1 }⟩
          (transduceAll symbols data)

/-- `transduce`. Nothing happens without symbols. -/
def transduce (st : State) (symbols : List String) : Step ε :=
  if symbols = [] then .again st
  else
    match g.invalidTransducerName? symbols with
    | some s => st.say [.message s!"Invalid transducer name: {s}"]
    | none =>
      match st.cwd.byteStream? with
      | none => st.expectsPayload
      | some data => Emits.andThen (st.say [.stream data]) (g.transduceAll symbols data)

/-- `fanout` and `h2fanout`: the servers that `asks` selects are asked, and the results are
printed beside all the symbols. -/
def askOrigins (st : State) (symbols : List String) (asks : Origin ε → Bool) : Step ε :=
  match st.cwd.byteStream? with
  | none => st.expectsPayload
  | some data =>
    let symbols := g.originNames symbols
    g.withOrigins st symbols fun servers =>
      match Repl.fanout data (servers.filter asks) st.connections st.heap with
      | .error e => .leave (.raised e)
      | .ok (results, heap) =>
        -- not the names of the servers that were asked
        ⟨printFanout heap results symbols,
          .again ⟨.results results, heap, st.connections + (servers.filter asks).length⟩⟩

/-- `print_unparsed_fanout`. -/
def printUnparsedFanout (st : State) (data : List Bytes)
    (servers : List (String × (Nat → List Bytes → Except ε (List Bytes)))) : Step ε :=
  match Repl.unparsedFanout data servers st.connections with
  | .error e => .leave (.raised e)
  | .ok results =>
    ⟨results.map fun (name, pieces) => .pieces name pieces,
      .again { st with connections := st.connections + servers.length }⟩

/-- `unparsed_fanout`. -/
def unparsedFanout (st : State) (symbols : List String) : Step ε :=
  match st.cwd.byteStream? with
  | none => st.expectsPayload
  | some data =>
    g.withOrigins st (g.originNames symbols) fun servers =>
      printUnparsedFanout st data (servers.map fun s => (s.name, s.unparsedRoundtrip))

/-- `unparsed_transducer_fanout`. -/
def unparsedTransducerFanout (st : State) (symbols : List String) : Step ε :=
  match st.cwd.byteStream? with
  | none => st.expectsPayload
  | some data =>
    let symbols := g.transducerNames symbols
    match g.invalidTransducerName? symbols with
    | some s => st.say [.message s!"Invalid transducer name: {s}"]
    | none =>
      match g.transducers? symbols with
      | none => .leave .keyError
      | some transducers =>
        printUnparsedFanout st data (transducers.map fun t => (t.name, t.unparsedRoundtrip))

/-- `h2frames`: the frames are appended to a stream of bytes, or begin one. -/
def h2frames (st : State) (symbols : List String) : Step ε :=
  match g.parseH2FramesStatement symbols with
  | .error (.replParseError e) => st.say [.message s!"repl parse error: {e}"]
  | .error (.raised e) => .leave (.raised e)
  | .ok frames =>
    match st.cwd.byteStream? with
    | some data => .again { st with cwd := .bytes (data ++ [frames.flatten]) }
    | none => .again { st with cwd := .bytes [frames.flatten] }

/-- The `match` in `main`. -/
def command : Process State Command Event (Exit ε) := fun st command =>
  match command with
  | .empty => .again st
  | .showPayload => st.say [.value st.cwd]
  | .payload symbols => g.payload st symbols
  | .grid symbols => g.consume st symbols reportGrid
  | .cluster symbols => g.consume st symbols reportClusters
  | .transduce symbols => g.transduce st symbols
  | .fanout symbols => g.askOrigins st symbols fun _ => true
  | .h2fanout symbols => g.askOrigins st symbols (·.allowsHttp2)
  | .unparsedFanout symbols => g.unparsedFanout st symbols
  | .unparsedTransducerFanout symbols => g.unparsedTransducerFanout st symbols
  | .h2frames symbols => g.h2frames st symbols
  | .exit => ⟨[.message "Next time, just press Ctrl-D :)"], .leave .exited⟩
  | .invalid => st.say [.message "Invalid syntax."]

/-- One pipeline of `main`, on the objects and after the connections of those before. -/
def pipeline (h : Heap) (n : Nat) (pipeline : List (List String)) : Step ε :=
  g.command.run ⟨.none, h, n⟩ (pipeline.map Command.ofTokens)

end Garden

end HttpGarden.Repl
