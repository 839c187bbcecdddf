import Bwk.LineSplit
import Bwk.OrderedMapSums

namespace Bwk.Mitm

/-!
# The proxy's account of a connection

`mitm/src/attribute.rs` and `mitm/src/metrics.rs`: the bytes of both directions
are put together into lines, each line is cut into the elements of a batch, and
each element is counted for a method.  Reading JSON is `serde_json`'s, and
times are left out.
-/

abbrev Bytes := List UInt8

inductive Direction where
  /-- Wallet to server. -/
  | up
  /-- Server to wallet. -/
  | down
  deriving Repr, DecidableEq

def newline : UInt8 := 10

/-- `LineReassembler::take_line`, called until it finds no line: the lines
without their newlines, and what is left. -/
def takeLines (buf : Bytes) : List Bytes × Bytes :=
  let (lines, left) := Lines.takeLines newline buf.length buf
  (lines.map List.dropLast, left)

structure MethodStats where
  calls : Nat
  responses : Nat
  bytesUp : Nat
  bytesDown : Nat
  deriving Repr, DecidableEq

def MethodStats.empty : MethodStats :=
  ⟨0, 0, 0, 0⟩

def MethodStats.add
    (stats : MethodStats)
    (dir : Direction)
    (bytes : Nat) : MethodStats :=
  match dir with
  | .up =>
      { stats with calls := stats.calls + 1, bytesUp := stats.bytesUp + bytes }
  | .down =>
      { stats with
        responses := stats.responses + 1
        bytesDown := stats.bytesDown + bytes }

def MethodStats.bytes (stats : MethodStats) : Direction → Nat
  | .up => stats.bytesUp
  | .down => stats.bytesDown

structure ErrorBucket where
  method : String
  code : Int
  count : Nat
  sample : String
  deriving Repr, DecidableEq

/-- How far responses were from the order of their requests. -/
structure OrderStats where
  outOfOrder : Nat
  maxDisplacement : Nat
  deriving Repr, DecidableEq

structure ResponseError where
  code : Int
  message : String
  deriving Repr, DecidableEq

/-- What is counted for one element of a line. -/
inductive ElementUpdate where
  /-- A request or a notification. -/
  | attributed (method : String) (bytes : Nat)
  /-- A response to an outstanding request. -/
  | matched
      (method : String)
      (bytes displacement : Nat)
      (error : Option ResponseError)
  | unattributed (bytes : Nat)
  deriving Repr, DecidableEq

def ElementUpdate.bytes : ElementUpdate → Nat
  | .attributed _ bytes => bytes
  | .matched _ bytes _ _ => bytes
  | .unattributed bytes => bytes

structure LineUpdate where
  dir : Direction
  lineSize : Nat
  framingBytes : Nat
  elements : List ElementUpdate
  deriving Repr, DecidableEq

structure ConnMetrics where
  roundTrips : Nat
  methods : BTreeMap String MethodStats
  unattributed : MethodStats
  lastDir : Option Direction
  framingBytesUp : Nat
  framingBytesDown : Nat
  largestRequestLine : Nat
  largestResponseLine : Nat
  errors : BTreeMap String ErrorBucket
  order : OrderStats

namespace ConnMetrics

def new : ConnMetrics where
  roundTrips := 0
  methods := ∅
  unattributed := .empty
  lastDir := none
  framingBytesUp := 0
  framingBytesDown := 0
  largestRequestLine := 0
  largestResponseLine := 0
  errors := ∅
  order := ⟨0, 0⟩

/-- Count a turn from the server back to the wallet. -/
def countRoundTrip (conn : ConnMetrics) (dir : Direction) : ConnMetrics :=
  { conn with
    roundTrips :=
      if dir = .up ∧ conn.lastDir ≠ some .up then conn.roundTrips + 1
      else conn.roundTrips
    lastDir := some dir }

def recordLineSize
    (conn : ConnMetrics)
    (dir : Direction)
    (bytes : Nat) : ConnMetrics :=
  match dir with
  | .up =>
      { conn with largestRequestLine := max conn.largestRequestLine bytes }
  | .down =>
      { conn with largestResponseLine := max conn.largestResponseLine bytes }

def recordError
    (conn : ConnMetrics)
    (method : String)
    (error : ResponseError) : ConnMetrics :=
  let key := method ++ ":" ++ toString error.code
  let bucket := conn.errors[key]?.getD ⟨method, error.code, 0, error.message⟩
  { conn with
    errors := conn.errors.insert key { bucket with count := bucket.count + 1 } }

def recordOrder
    (conn : ConnMetrics)
    (displacement : Nat) : ConnMetrics :=
  if displacement = 0 then
    conn
  else
    { conn with
      order :=
        ⟨conn.order.outOfOrder + 1,
          max conn.order.maxDisplacement displacement⟩ }

def record
    (conn : ConnMetrics)
    (dir : Direction)
    (method : String)
    (bytes : Nat) : ConnMetrics :=
  let stats := conn.methods[method]?.getD .empty
  { conn with methods := conn.methods.insert method (stats.add dir bytes) }
    |>.countRoundTrip dir

def recordFraming
    (conn : ConnMetrics)
    (dir : Direction)
    (bytes : Nat) : ConnMetrics :=
  match dir with
  | .up => { conn with framingBytesUp := conn.framingBytesUp + bytes }
  | .down => { conn with framingBytesDown := conn.framingBytesDown + bytes }

def recordUnattributed
    (conn : ConnMetrics)
    (dir : Direction)
    (bytes : Nat) : ConnMetrics :=
  { conn with unattributed := conn.unattributed.add dir bytes }
    |>.countRoundTrip dir

def applyElement
    (conn : ConnMetrics)
    (dir : Direction) : ElementUpdate → ConnMetrics
  | .attributed method bytes => conn.record dir method bytes
  | .matched method bytes displacement error =>
      let recorded := (conn.recordOrder displacement).record dir method bytes
      match error with
      | some error => recorded.recordError method error
      | none => recorded
  | .unattributed bytes => conn.recordUnattributed dir bytes

/-- Count a line: its size, its elements, and then the framing. -/
def applyLine (conn : ConnMetrics) (update : LineUpdate) : ConnMetrics :=
  (update.elements.foldl (applyElement · update.dir ·)
    (conn.recordLineSize update.dir update.lineSize)).recordFraming
      update.dir update.framingBytes

def framingBytes (conn : ConnMetrics) : Direction → Nat
  | .up => conn.framingBytesUp
  | .down => conn.framingBytesDown

/-- The bytes of one direction that are accounted for. -/
def accounted (conn : ConnMetrics) (dir : Direction) : Nat :=
  conn.methods.total (fun _ stats => stats.bytes dir) +
    conn.unattributed.bytes dir + conn.framingBytes dir

end ConnMetrics

/-- What is read of a message; the id is what `id_key` makes of it. -/
structure Envelope where
  method : Option String
  id : Option String
  error : Option ResponseError
  deriving Repr, DecidableEq

/-- What `serde_json` reads. -/
structure Serde where
  /-- The raw elements, if the line is an array. -/
  elements : Bytes → Option (List Bytes)
  envelope : Bytes → Option Envelope

/-- The raw elements of an array are pieces of its text that do not overlap. -/
def Serde.Disjoint (serde : Serde) : Prop :=
  ∀ line elements, serde.elements line = some elements →
    (elements.map List.length).sum ≤ line.length

def maxOutstanding : Nat := 1024

/-- The outstanding requests of a connection by id, and the ids in the order
they were sent. -/
structure Requests where
  pending : BTreeMap String String
  sentOrder : List String

namespace Requests

def new : Requests where
  pending := ∅
  sentOrder := []

/-- Keep the id of a request, and drop the oldest of too many. -/
def pushSentOrder (sentOrder : List String) (key : String) : List String :=
  if (sentOrder ++ [key]).length > maxOutstanding then
    (sentOrder ++ [key]).tail
  else
    sentOrder ++ [key]

/-- The place of an id in the order, and the order without it. -/
def resolveOrder (sentOrder : List String) (key : String) :
    Nat × List String :=
  match sentOrder.findIdx? (· = key) with
  | some pos => (pos, sentOrder.eraseIdx pos)
  | none => (0, sentOrder)

/-- `attribute` -/
def attributeElement
    (serde : Serde)
    (requests : Requests)
    (dir : Direction)
    (raw : Bytes) : Requests × ElementUpdate :=
  match dir, serde.envelope raw with
  | .up, some ⟨some method, some key, _⟩ =>
      -- An id that is sent again replaces its request, and is queued twice.
      (⟨requests.pending.insert key method,
          pushSentOrder requests.sentOrder key⟩,
        .attributed method raw.length)
  | .up, some ⟨some method, none, _⟩ =>
      (requests, .attributed method raw.length)
  | .down, some ⟨some method, none, _⟩ =>
      (requests, .attributed method raw.length)
  | .down, some ⟨_, some key, error⟩ =>
      match requests.pending[key]? with
      | some method =>
          let (displacement, sentOrder) := resolveOrder requests.sentOrder key
          (⟨requests.pending.erase key, sentOrder⟩,
            .matched method raw.length displacement error)
      | none => (requests, .unattributed raw.length)
  | _, _ => (requests, .unattributed raw.length)

def attributeAll
    (serde : Serde)
    (dir : Direction) :
    Requests → List Bytes → Requests × List ElementUpdate
  | requests, [] => (requests, [])
  | requests, raw :: later =>
      let (requests, update) := requests.attributeElement serde dir raw
      let (requests, updates) := attributeAll serde dir requests later
      (requests, update :: updates)

def onLine
    (serde : Serde)
    (requests : Requests)
    (dir : Direction)
    (line : Bytes) : Requests × LineUpdate :=
  match serde.elements line with
  | some elements =>
      let (requests, updates) := requests.attributeAll serde dir elements
      -- The newline is framing, like what stands between the elements.
      (requests,
        ⟨dir, line.length,
          line.length - (elements.map List.length).sum + 1, updates⟩)
  | none =>
      let (requests, update) := requests.attributeElement serde dir line
      (requests, ⟨dir, line.length, 1, [update]⟩)

def onLines
    (serde : Serde) :
    Requests → List (Direction × Bytes) → Requests × List LineUpdate
  | requests, [] => (requests, [])
  | requests, (dir, line) :: later =>
      let (requests, update) := requests.onLine serde dir line
      let (requests, updates) := onLines serde requests later
      (requests, update :: updates)

end Requests

/-- The requests of a connection, and the bytes of both directions that are
not a line yet. -/
structure Attributor where
  requests : Requests
  buf : Direction → Bytes

namespace Attributor

def new : Attributor where
  requests := .new
  buf _ := []

/-- Feed a chunk of one direction; what is returned is applied to the metrics
of the connection, in order. -/
def feed
    (serde : Serde)
    (attributor : Attributor)
    (dir : Direction)
    (chunk : Bytes) : Attributor × List LineUpdate :=
  let (lines, left) := takeLines (attributor.buf dir ++ chunk)
  let (requests, updates) :=
    attributor.requests.onLines serde (lines.map (dir, ·))
  (⟨requests, Function.update attributor.buf dir left⟩, updates)

def feeds
    (serde : Serde) :
    Attributor → List (Direction × Bytes) → Attributor × List LineUpdate
  | attributor, [] => (attributor, [])
  | attributor, (dir, chunk) :: later =>
      let (attributor, updates) := attributor.feed serde dir chunk
      let (attributor, more) := feeds serde attributor later
      (attributor, updates ++ more)

end Attributor

/-- The metrics of a connection after some chunks. -/
def account
    (serde : Serde)
    (chunks : List (Direction × Bytes)) : ConnMetrics :=
  (Attributor.new.feeds serde chunks).2.foldl ConnMetrics.applyLine .new

/-- The bytes fed in one direction. -/
def streamOf
    (dir : Direction)
    (chunks : List (Direction × Bytes)) : Bytes :=
  ((chunks.filter (·.1 = dir)).map Prod.snd).flatten

/-- The complete lines of a stream, without their newlines. -/
def linesOf (stream : Bytes) : List Bytes :=
  (Lines.split newline stream).1.map List.dropLast

/-- The complete lines that chunks bring, in the order they become complete,
after the bytes seen before. -/
def arrivals :
    (Direction → Bytes) → List (Direction × Bytes) → List (Direction × Bytes)
  | _, [] => []
  | seen, (dir, chunk) :: later =>
      ((linesOf (seen dir ++ chunk)).drop (linesOf (seen dir)).length).map
          (dir, ·) ++
        arrivals (Function.update seen dir (seen dir ++ chunk)) later

theorem Requests.onLines_append
    (serde : Serde)
    (requests : Requests)
    (lines later : List (Direction × Bytes)) :
    requests.onLines serde (lines ++ later) =
      (((requests.onLines serde lines).1.onLines serde later).1,
        (requests.onLines serde lines).2 ++
          ((requests.onLines serde lines).1.onLines serde later).2) := by
  induction lines generalizing requests with
  | nil =>
      rfl
  | cons line lines inductionHypothesis =>
      simp only [List.cons_append, onLines, inductionHypothesis]

/-- What follows the last newline of what was seen waits for its line. -/
theorem takeLines_eq
    {buf seen : Bytes}
    (left : buf = (Lines.split newline seen).2)
    (chunk : Bytes) :
    takeLines (buf ++ chunk) =
      ((linesOf (seen ++ chunk)).drop (linesOf seen).length,
        (Lines.split newline (seen ++ chunk)).2) := by
  have whole := @Lines.split_append _ _ newline seen chunk
  rw [takeLines, Lines.takeLines_eq_split le_rfl, left, linesOf, linesOf,
    whole]
  simp

/-- Feeding chunks is attributing the lines that arrive, whatever the cuts. -/
theorem Attributor.feeds_eq_onLines
    (serde : Serde)
    {attributor : Attributor}
    {seen : Direction → Bytes}
    (left : ∀ dir, attributor.buf dir = (Lines.split newline (seen dir)).2)
    (chunks : List (Direction × Bytes)) :
    (attributor.feeds serde chunks).2 =
      (attributor.requests.onLines serde (arrivals seen chunks)).2 := by
  induction chunks generalizing attributor seen with
  | nil =>
      rfl
  | cons first later inductionHypothesis =>
      obtain ⟨dir, chunk⟩ := first
      have goesOn : ∀ other,
          (attributor.feed serde dir chunk).1.buf other =
            (Lines.split newline
              (Function.update seen dir (seen dir ++ chunk) other)).2 := by
        intro other
        rw [feed, takeLines_eq (left dir)]
        by_cases same : other = dir
        · subst same
          simp
        · simp [same, left]
      rw [feeds, arrivals, Requests.onLines_append]
      simp only [inductionHypothesis goesOn]
      rw [feed, takeLines_eq (left dir)]

theorem MethodStats.bytes_add
    (stats : MethodStats)
    (dir other : Direction)
    (bytes : Nat) :
    (stats.add dir bytes).bytes other =
      stats.bytes other + if other = dir then bytes else 0 := by
  cases dir <;> cases other <;> rfl

namespace ConnMetrics

variable (conn : ConnMetrics) (dir : Direction) (method : String)

theorem accounted_record
    (bytes : Nat)
    (other : Direction) :
    (conn.record dir method bytes).accounted other =
      conn.accounted other + if other = dir then bytes else 0 := by
  have replaced := BTreeMap.total_insert conn.methods
    (fun _ stats => stats.bytes other) method
    ((conn.methods[method]?.getD .empty).add dir bytes)
  have shared :
      BTreeMap.share conn.methods (fun _ stats => stats.bytes other) method =
        (conn.methods[method]?.getD .empty).bytes other := by
    unfold BTreeMap.share
    cases conn.methods[method]? with
    | none =>
        cases other <;> rfl
    | some stats =>
        rfl
  rw [shared, MethodStats.bytes_add] at replaced
  have framing :
      (conn.record dir method bytes).framingBytes other =
        conn.framingBytes other := by
    cases other <;> rfl
  rw [accounted, framing]
  simp only [record, countRoundTrip, accounted]
  omega

theorem accounted_recordUnattributed
    (bytes : Nat)
    (other : Direction) :
    (conn.recordUnattributed dir bytes).accounted other =
      conn.accounted other + if other = dir then bytes else 0 := by
  have framing :
      (conn.recordUnattributed dir bytes).framingBytes other =
        conn.framingBytes other := by
    cases other <;> rfl
  rw [accounted, framing]
  simp only [recordUnattributed, countRoundTrip, accounted,
    MethodStats.bytes_add]
  omega

theorem accounted_recordError
    (error : ResponseError)
    (other : Direction) :
    (conn.recordError method error).accounted other =
      conn.accounted other := by
  cases other <;> rfl

theorem accounted_recordOrder
    (displacement : Nat)
    (other : Direction) :
    (conn.recordOrder displacement).accounted other =
      conn.accounted other := by
  unfold recordOrder
  split
  · rfl
  · cases other <;> rfl

theorem accounted_applyElement
    (element : ElementUpdate)
    (other : Direction) :
    (conn.applyElement dir element).accounted other =
      conn.accounted other + if other = dir then element.bytes else 0 := by
  cases element with
  | attributed method bytes =>
      exact accounted_record conn dir method bytes other
  | matched method bytes displacement error =>
      cases error with
      | none =>
          simp only [applyElement, accounted_record, accounted_recordOrder,
            ElementUpdate.bytes]
      | some error =>
          simp only [applyElement, accounted_recordError, accounted_record,
            accounted_recordOrder, ElementUpdate.bytes]
  | unattributed bytes =>
      exact accounted_recordUnattributed conn dir bytes other

theorem accounted_applyElements
    (elements : List ElementUpdate)
    (other : Direction) :
    (elements.foldl (applyElement · dir ·) conn).accounted other =
      conn.accounted other +
        if other = dir then (elements.map ElementUpdate.bytes).sum else 0 := by
  induction elements generalizing conn with
  | nil =>
      simp
  | cons element later inductionHypothesis =>
      rw [List.foldl_cons, inductionHypothesis, accounted_applyElement]
      split
      · rw [List.map_cons, List.sum_cons]
        omega
      · rfl

theorem accounted_applyLine
    (update : LineUpdate)
    (other : Direction) :
    (conn.applyLine update).accounted other =
      conn.accounted other +
        if other = update.dir then
          (update.elements.map ElementUpdate.bytes).sum + update.framingBytes
        else 0 := by
  have framed : ∀ (before : ConnMetrics),
      (before.recordFraming update.dir update.framingBytes).accounted other =
        before.accounted other +
          if other = update.dir then update.framingBytes else 0 := by
    intro before
    unfold recordFraming accounted
    cases update.dir <;> cases other <;> simp [framingBytes, Nat.add_assoc]
  have sized :
      (conn.recordLineSize update.dir update.lineSize).accounted other =
        conn.accounted other := by
    unfold recordLineSize
    cases update.dir <;> cases other <;> rfl
  rw [applyLine, framed, accounted_applyElements, sized]
  split
  · omega
  · rfl

end ConnMetrics

namespace Requests

theorem bytes_attributeElement
    (serde : Serde)
    (requests : Requests)
    (dir : Direction)
    (raw : Bytes) :
    (requests.attributeElement serde dir raw).2.bytes = raw.length := by
  unfold attributeElement
  split
  · rfl
  · rfl
  · rfl
  · split <;> rfl
  · rfl

theorem bytes_attributeAll
    (serde : Serde)
    (requests : Requests)
    (dir : Direction)
    (elements : List Bytes) :
    (requests.attributeAll serde dir elements).2.map ElementUpdate.bytes =
      elements.map List.length := by
  induction elements generalizing requests with
  | nil =>
      rfl
  | cons raw later inductionHypothesis =>
      simp only [attributeAll, List.map_cons, bytes_attributeElement,
        inductionHypothesis]

theorem bytes_onLine
    {serde : Serde}
    (disjoint : serde.Disjoint)
    (requests : Requests)
    (dir : Direction)
    (line : Bytes) :
    (requests.onLine serde dir line).2.dir = dir ∧
      ((requests.onLine serde dir line).2.elements.map
          ElementUpdate.bytes).sum +
        (requests.onLine serde dir line).2.framingBytes =
        line.length + 1 := by
  unfold onLine
  split
  · next elements read =>
    have fits := disjoint line elements read
    refine ⟨rfl, ?_⟩
    rw [bytes_attributeAll]
    show _ + (_ + 1) = _
    omega
  · exact ⟨rfl, by simp [bytes_attributeElement]⟩

theorem accounted_onLines
    {serde : Serde}
    (disjoint : serde.Disjoint)
    (requests : Requests)
    (lines : List (Direction × Bytes))
    (conn : ConnMetrics)
    (dir : Direction) :
    ((requests.onLines serde lines).2.foldl
        ConnMetrics.applyLine conn).accounted dir =
      conn.accounted dir +
        (((lines.filter (·.1 = dir)).map Prod.snd).map
          (fun line => line.length + 1)).sum := by
  induction lines generalizing requests conn with
  | nil =>
      rfl
  | cons first later inductionHypothesis =>
      obtain ⟨side, line⟩ := first
      obtain ⟨same, whole⟩ := bytes_onLine disjoint requests side line
      rw [onLines, List.foldl_cons, inductionHypothesis,
        ConnMetrics.accounted_applyLine, same, whole, List.filter_cons]
      by_cases own : dir = side
      · simp [own, Nat.add_assoc]
      · simp [own, Ne.symm own]

end Requests

theorem linesOf_append (stream later : Bytes) :
    linesOf (stream ++ later) =
      linesOf stream ++
        linesOf ((Lines.split newline stream).2 ++ later) := by
  rw [linesOf, linesOf, linesOf, Lines.split_append, List.map_append]

theorem arrivals_of_dir
    (seen : Direction → Bytes)
    (chunks : List (Direction × Bytes))
    (dir : Direction) :
    linesOf (seen dir) ++
        ((arrivals seen chunks).filter (·.1 = dir)).map Prod.snd =
      linesOf (seen dir ++ streamOf dir chunks) := by
  induction chunks generalizing seen with
  | nil =>
      simp [arrivals, streamOf]
  | cons first later inductionHypothesis =>
      obtain ⟨side, chunk⟩ := first
      have rest := inductionHypothesis
        (Function.update seen side (seen side ++ chunk))
      rw [arrivals, List.filter_append, List.map_append]
      by_cases own : side = dir
      · subst own
        rw [Function.update_self, linesOf_append (seen side)] at rest
        rw [linesOf_append (seen side) chunk]
        simp only [List.drop_left, streamOf, List.filter_cons, decide_true,
          if_true, List.map_cons, List.flatten_cons, ← List.append_assoc]
        rw [← streamOf, ← rest]
        simp [List.filter_map, Function.comp_def]
      · rw [Function.update_of_ne (Ne.symm own)] at rest
        simp only [streamOf, List.filter_cons, own, decide_false,
          Bool.false_eq_true, if_false]
        rw [← streamOf, ← rest, List.filter_map]
        simp [Function.comp_def, own]

/-- Lines and their newlines are the bytes up to the last newline. -/
theorem length_linesOf (stream : Bytes) :
    ((linesOf stream).map (fun line => line.length + 1)).sum =
      (stream.rdropWhile (· ≠ newline)).length := by
  rw [← Lines.flatten_lines, List.length_flatten, linesOf, List.map_map]
  refine congrArg List.sum (List.map_congr_left (fun line listed => ?_))
  obtain ⟨body, rfl, -⟩ := Lines.line_of_mem_split listed
  simp

/-- Between any two chunks the proxy has counted every byte of a direction up
to its last newline once, and what it has counted depends on the lines alone,
in the order they arrived. -/
theorem every_byte_accounted
    {serde : Serde}
    (disjoint : serde.Disjoint) :
    (∀ chunks dir,
      (account serde chunks).accounted dir =
        ((streamOf dir chunks).rdropWhile (· ≠ newline)).length) ∧
      ∀ chunks recut,
        arrivals (fun _ => []) chunks = arrivals (fun _ => []) recut →
          account serde chunks = account serde recut := by
  have fed : ∀ chunks,
      (Attributor.new.feeds serde chunks).2 =
        (Requests.new.onLines serde (arrivals (fun _ => []) chunks)).2 :=
    Attributor.feeds_eq_onLines serde (fun _ => rfl)
  constructor
  · intro chunks dir
    have cut := arrivals_of_dir (fun _ => []) chunks dir
    rw [account, fed, Requests.accounted_onLines disjoint, ← length_linesOf,
      ← List.nil_append (streamOf dir chunks), ← cut]
    cases dir <;> exact Nat.zero_add _
  · intro chunks recut same
    rw [account, account, fed, fed, same]

namespace Sample

def text (written : String) : Bytes :=
  written.toUTF8.toList

def request : Bytes := text "\x7b\"id\":1,\"method\":\"a\"\x7d"
def request₂ : Bytes := text "\x7b\"id\":2,\"method\":\"a\"\x7d"
def response : Bytes := text "\x7b\"id\":1\x7d"
def response₂ : Bytes := text "\x7b\"id\":2\x7d"

/-- A batch of a request and a number. -/
def batch : Bytes := text "[" ++ request ++ text ",7]"

/-- What is read of these texts. -/
def serde : Serde where
  elements line := if line = batch then some [request, text "7"] else none
  envelope raw :=
    if raw = request then some ⟨some "a", some "1", none⟩
    else if raw = request₂ then some ⟨some "a", some "2", none⟩
    else if raw = response then some ⟨none, some "1", none⟩
    else if raw = response₂ then some ⟨none, some "2", none⟩
    else none

theorem serde_disjoint : serde.Disjoint := by
  intro line elements read
  dsimp only [serde] at read
  split at read
  · next same =>
    cases read
    rw [same]
    decide +kernel
  · cases read

end Sample

theorem every_byte_accounted_batch :
    Sample.serde.Disjoint ∧
      (account Sample.serde
        [(.up, Sample.batch.take 9),
          (.up, Sample.batch.drop 9 ++ [newline, 65])]).accounted .up =
        Sample.batch.length + 1 :=
  ⟨Sample.serde_disjoint,
    ((every_byte_accounted Sample.serde_disjoint).1 _ _).trans
      (by decide +kernel)⟩

end Bwk.Mitm
