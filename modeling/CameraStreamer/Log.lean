import CameraStreamer.Lib.CharBuffer

/-!
# Log lines

Model of `LogMessage` and `LogErrnoMessage` (`src/include/log.hpp:80-181`): a line is built in a
buffer of 512 characters by the constructor and the `<<` operators and written by the destructor.
`snprintf` returns the length of the untruncated text and writes what its size argument allows.

* `sizes` and `indices` record the size argument of each `snprintf`, before its conversion to
  `size_t`, and each index of `buf_` written. No code reads them.
* The timestamp is a parameter, and so is the text of a `double`.
* The two `write` calls of the destructor, to the log file and the terminal, get the same bytes:
  `flush` returns them.

Results:
* `textOf_allOperands`: the suffix of `LogErrnoMessage`.
* `holds_append`: the buffer holds the first 510 characters of what has been appended. All four
  ways of appending keep this, at every fill level.
* **`truncation_law`**: so the line is the first 510 characters of prefix, operands and `errno`
  suffix, and a newline, however the text is divided among operands.
-/

namespace CameraStreamer.Log

open Lib.CharBuffer

/-- `LogLevel`. -/
inductive LogLevel
  | error
  | warn
  | info
  | debug
  deriving DecidableEq, Repr

/-- The value of the enumerator. -/
def LogLevel.value : LogLevel → Nat
  | .error => 0
  | .warn => 1
  | .info => 2
  | .debug => 3

/-- `levelToString`. -/
def levelToString : LogLevel → List Char
  | .error => "ERROR".toList
  | .warn => "WARN ".toList
  | .info => "INFO ".toList
  | .debug => "DEBUG".toList

/-- `extractFilename`: what follows the last slash. -/
def extractFilename (path : List Char) : List Char :=
  (path.reverse.takeWhile (· ≠ '/')).reverse

/-- `BUF_SIZE`. -/
def bufSize : Nat := 512

/-- `LogMessage` (`log.hpp:137-143`), and what was done to its buffer. -/
structure LogMessage where
  shouldLog : Bool
  buf : Nat → Char
  pos : Nat
  sizes : List Int
  indices : List Nat

/-- What a log statement is made with: the threshold `g_log_level` and the level, the place in the
source, the time, and what the stack holds where the buffer will be. -/
structure Site where
  gLogLevel : LogLevel
  level : LogLevel
  file : List Char
  line : Int
  timestamp : List Char
  stack : Nat → Char

/-- `level <= g_log_level`. -/
def Site.enabled (site : Site) : Bool := decide (site.level.value ≤ site.gLogLevel.value)

/-- A number in decimal, as `%d` and its relatives print it. -/
def decimal (v : Int) : List Char := (toString v).toList

/-- `"[%s] [%s] [%s:%d] "`. -/
def Site.text (site : Site) : List Char :=
  '[' :: levelToString site.level ++ "] [".toList ++ site.timestamp ++ "] [".toList ++
    extractFilename site.file ++ ':' :: decimal site.line ++ "] ".toList

namespace LogMessage

/-- Write characters into the buffer from an index on. -/
def put (m : LogMessage) (off : Nat) (xs : List Char) : LogMessage :=
  { m with buf := store m.buf off xs, indices := m.indices ++ List.range' off xs.length }

/-- `snprintf(buf_ + pos_, size, …)` of a text. -/
def snprintf (m : LogMessage) (size : Int) (text : List Char) : LogMessage :=
  { m.put m.pos (written size text) with sizes := m.sizes ++ [size] }

/-- The constructor (`log.hpp:88-98`). -/
def construct (site : Site) : LogMessage :=
  let m : LogMessage := ⟨site.enabled, site.stack, 0, [], []⟩
  if m.shouldLog then
    let n := site.text.length
    let m := m.snprintf (bufSize - 1) site.text
    if 0 < n then { m with pos := if n < bufSize - 1 then n else bufSize - 2 } else m
  else m

/-- The `snprintf` and the clamp that `append_s` and `appendFmt` share. -/
def appendText (m : LogMessage) (text : List Char) : LogMessage :=
  let n := text.length
  let m := m.snprintf (bufSize - 1 - m.pos) text
  if 0 < n then
    { m with pos := if bufSize - 1 ≤ m.pos + n then bufSize - 2 else m.pos + n }
  else m

/-- `append_s` (`log.hpp:145-152`). -/
def appendS (m : LogMessage) (s : List Char) : LogMessage :=
  if bufSize - 1 ≤ m.pos then m else m.appendText s

/-- `appendFmt` (`log.hpp:154-164`), with the text `snprintf` makes of the value. -/
def appendFmt (m : LogMessage) (text : List Char) : LogMessage :=
  if m.shouldLog && decide (m.pos < bufSize - 1) then m.appendText text else m

/-- `operator<<(char)` (`log.hpp:124-127`). -/
def appendChar (m : LogMessage) (c : Char) : LogMessage :=
  if m.shouldLog && decide (m.pos < bufSize - 2) then
    { m.put m.pos [c] with pos := m.pos + 1 }
  else m

end LogMessage

/-- An operand of `<<`: a `const char*`, null or not, a `char`, a `bool`, an integer of any of the
six types, or a `double` with what `%.2f` makes of it. -/
inductive Operand
  | str (s : Option (List Char))
  | chr (c : Char)
  | bool (v : Bool)
  | int (v : Int)
  | double (text : List Char)

/-- `v ? "true" : "false"`. -/
def boolText (v : Bool) : List Char := if v then "true".toList else "false".toList

/-- The text of an operand; a null pointer has none. -/
def Operand.text : Operand → List Char
  | .str s => s.getD []
  | .chr c => [c]
  | .bool v => boolText v
  | .int v => decimal v
  | .double text => text

/-- The text of a list of operands. -/
def textOf (ops : List Operand) : List Char := ops.flatMap Operand.text

namespace LogMessage

/-- `operator<<(const char*)` (`log.hpp:120-123`). -/
def appendStr (m : LogMessage) : Option (List Char) → LogMessage
  | some s => if m.shouldLog then m.appendS s else m
  | none => m

/-- `operator<<`. -/
def append (m : LogMessage) : Operand → LogMessage
  | .str s => m.appendStr s
  | .chr c => m.appendChar c
  | .bool v => m.appendStr (some (boolText v))
  | .int v => m.appendFmt (decimal v)
  | .double text => m.appendFmt text

/-- The destructor (`log.hpp:100-114`): the message after it, and the bytes it writes. -/
def flush (m : LogMessage) : LogMessage × Option (List Char) :=
  if m.shouldLog then
    let m := if m.pos < bufSize - 1 then { m.put m.pos ['\n'] with pos := m.pos + 1 } else m
    let m := m.put m.pos ['\x00']
    (m, some (load m.buf m.pos))
  else (m, none)

end LogMessage

/-- What `~LogErrnoMessage` appends (`log.hpp:173-177`). -/
def errnoOperands (strerror : Int → List Char) (errNum : Int) : List Operand :=
  if errNum ≠ 0 then
    [.str (some ": ".toList), .str (some (strerror errNum)), .str (some " (errno=".toList),
      .int errNum, .str (some ")".toList)]
  else []

/-- A log statement's operands, with those of `~LogErrnoMessage` if it is one with `errno`. -/
def allOperands (strerror : Int → List Char) (ops : List Operand) (errNum : Option Int) :
    List Operand :=
  ops ++ (errNum.map (errnoOperands strerror)).getD []

/-- The message after some operands. -/
def message (site : Site) (ops : List Operand) : LogMessage :=
  ops.foldl LogMessage.append (LogMessage.construct site)

/-- A whole log statement. -/
def logged (site : Site) (ops : List Operand) : LogMessage × Option (List Char) :=
  (message site ops).flush

theorem textOf_allOperands (strerror : Int → List Char) (ops : List Operand) {errNum : Int}
    (h : errNum ≠ 0) : textOf (allOperands strerror ops (some errNum)) = textOf ops ++
      (": ".toList ++ (strerror errNum ++ (" (errno=".toList ++ (decimal errNum ++ [')'])))) := by
  unfold allOperands textOf
  rw [List.flatMap_append, Option.map_some, Option.getD_some, errnoOperands, if_pos h]
  rfl

/-! ## What the buffer holds -/

/-- The buffer holds the first 510 characters of a text, and every access to it was in order. -/
structure Holds (m : LogMessage) (t : List Char) : Prop where
  on : m.shouldLog = true
  pos : m.pos = min t.length 510
  loaded : load m.buf m.pos = t.take 510
  sizes : ∀ z ∈ m.sizes, 1 ≤ z
  indices : ∀ i ∈ m.indices, i < bufSize

variable {m : LogMessage} {t : List Char}

theorem take_append_text (t text : List Char) :
    t.take 510 ++ text.take (510 - min t.length 510) = (t ++ text).take 510 := by
  rw [List.take_append]
  congr 2
  omega

/-- The indices of a write. -/
theorem indices_put (h : ∀ i ∈ m.indices, i < bufSize) {off : Nat} {xs : List Char}
    (hxs : off + xs.length ≤ bufSize) : ∀ i ∈ (m.put off xs).indices, i < bufSize := by
  intro i hi
  rcases List.mem_append.mp hi with hi | hi
  · exact h i hi
  · have hlt := (List.mem_range'_1.mp hi).2
    omega

/-- **`snprintf` and clamp**: short of the clamp or at it, `pos_` grows by what there was room
for. -/
theorem appendText_eq {room : Nat} (hroom : m.pos + room = bufSize - 2) (text : List Char) :
    m.appendText text =
      { m.snprintf (room + 1) text with pos := m.pos + min text.length room } := by
  have hsize : ((bufSize : Int) - 1 - m.pos) = (room : Int) + 1 := by
    unfold bufSize at hroom ⊢
    omega
  have hsnprintf : ∀ size, (m.snprintf size text).pos = m.pos := fun _ => rfl
  unfold LogMessage.appendText
  rw [hsize]
  dsimp only
  by_cases hn : 0 < text.length
  · rw [if_pos hn, hsnprintf]
    congr 1
    split <;> omega
  · rw [if_neg hn, Nat.eq_zero_of_not_pos hn, Nat.zero_min, Nat.add_zero]
    rfl

theorem holds_appendText (h : Holds m t) (text : List Char) :
    Holds (m.appendText text) (t ++ text) := by
  have hpos := h.pos
  obtain ⟨room, hroom⟩ : ∃ room, m.pos + room = 510 := ⟨510 - m.pos, by omega⟩
  rw [appendText_eq hroom]
  refine ⟨h.on, ?_, ?_, ?_, ?_⟩
  · show m.pos + min text.length room = _
    rw [List.length_append]
    omega
  · show load (store m.buf m.pos (written (room + 1) text)) (m.pos + min text.length room) = _
    rw [load_snprintf, h.loaded, ← take_append_text, ← hpos]
    congr 2
    omega
  · intro z hz
    rcases List.mem_append.mp hz with hz | hz
    · exact h.sizes z hz
    · rw [List.mem_singleton.mp hz]
      omega
  · refine indices_put h.indices ?_
    rw [written_of_pos, List.length_append, List.length_take, List.length_singleton]
    unfold bufSize
    omega

theorem holds_appendStr (h : Holds m t) (s : Option (List Char)) :
    Holds (m.appendStr s) (t ++ s.getD []) := by
  cases s with
  | none =>
    rw [Option.getD_none, List.append_nil]
    exact h
  | some s =>
    have hpos := h.pos
    have hguard : ¬ bufSize - 1 ≤ m.pos := by
      unfold bufSize
      omega
    show Holds (if m.shouldLog = true then m.appendS s else m) (t ++ s)
    rw [if_pos h.on, LogMessage.appendS, if_neg hguard]
    exact holds_appendText h s

theorem holds_appendFmt (h : Holds m t) (text : List Char) :
    Holds (m.appendFmt text) (t ++ text) := by
  have hpos := h.pos
  have hguard : (m.shouldLog && decide (m.pos < bufSize - 1)) = true := by
    rw [h.on, Bool.true_and, decide_eq_true_eq]
    unfold bufSize
    omega
  unfold LogMessage.appendFmt
  rw [if_pos hguard]
  exact holds_appendText h text

/-- The guard of `char` leaves the last place that `snprintf` leaves to its NUL. -/
theorem holds_appendChar (h : Holds m t) (c : Char) : Holds (m.appendChar c) (t ++ [c]) := by
  have hpos := h.pos
  unfold LogMessage.appendChar
  by_cases hroom : m.pos < 510
  · have hguard : (m.shouldLog && decide (m.pos < bufSize - 2)) = true := by
      rw [h.on, Bool.true_and, decide_eq_true_eq]
      exact hroom
    rw [if_pos hguard]
    refine ⟨h.on, ?_, ?_, h.sizes, indices_put h.indices ?_⟩
    · show m.pos + 1 = _
      rw [List.length_append, List.length_singleton]
      omega
    · show load (store m.buf m.pos [c]) (m.pos + 1) = _
      have hfits : [c].length ≤ 510 - min t.length 510 := by
        rw [List.length_singleton]
        omega
      rw [load_store (Nat.le_refl 1), h.loaded, ← take_append_text, List.take_of_length_le hfits]
      rfl
    · rw [List.length_singleton]
      unfold bufSize
      omega
  · have hguard : (m.shouldLog && decide (m.pos < bufSize - 2)) = false := by
      rw [h.on, Bool.true_and, decide_eq_false_iff_not]
      exact hroom
    rw [hguard, if_neg Bool.false_ne_true]
    refine ⟨h.on, ?_, ?_, h.sizes, h.indices⟩
    · rw [List.length_append]
      omega
    · rw [h.loaded, List.take_append_of_le_length (by omega)]

/-- **Every operand** keeps the buffer at the first 510 characters of the text. -/
theorem holds_append (h : Holds m t) (op : Operand) : Holds (m.append op) (t ++ op.text) := by
  cases op with
  | str s => exact holds_appendStr h s
  | chr c => exact holds_appendChar h c
  | bool v => exact holds_appendStr h (some (boolText v))
  | int v => exact holds_appendFmt h (decimal v)
  | double text => exact holds_appendFmt h text

/-! ## From the constructor to the destructor -/

variable {site : Site}

/-- The constructor clamps as the operators do. -/
theorem construct_eq (hon : site.enabled = true) :
    LogMessage.construct site =
      (⟨true, site.stack, 0, [], []⟩ : LogMessage).appendText site.text := by
  unfold LogMessage.construct
  rw [hon]
  dsimp only
  rw [if_pos rfl, LogMessage.appendText]
  have hsize : ((bufSize : Int) - 1 - (0 : Nat)) = bufSize - 1 := by omega
  have hclamp : ∀ n : Nat, (if n < bufSize - 1 then n else bufSize - 2) =
      if bufSize - 1 ≤ 0 + n then bufSize - 2 else 0 + n := by
    intro n
    by_cases hn : n < bufSize - 1
    · rw [if_pos hn, if_neg (by omega), Nat.zero_add]
    · rw [if_neg hn, if_pos (by omega)]
  rw [hsize]
  split
  · congr 1
    exact hclamp _
  · rfl

theorem holds_message (hon : site.enabled = true) (ops : List Operand) :
    Holds (message site ops) (site.text ++ textOf ops) := by
  have hempty : Holds ⟨true, site.stack, 0, [], []⟩ [] :=
    ⟨rfl, rfl, rfl, fun z hz => absurd hz List.not_mem_nil, fun i hi => absurd hi List.not_mem_nil⟩
  have hstart : Holds (LogMessage.construct site) site.text := by
    rw [construct_eq hon]
    exact holds_appendText hempty site.text
  have hfold : ∀ (ops : List Operand) (m : LogMessage) (t : List Char), Holds m t →
      Holds (ops.foldl LogMessage.append m) (t ++ textOf ops) := by
    intro ops
    induction ops with
    | nil =>
      intro m t h
      rw [textOf, List.flatMap_nil, List.append_nil]
      exact h
    | cons op ops ih =>
      intro m t h
      rw [textOf, List.flatMap_cons, ← List.append_assoc]
      exact ih _ _ (holds_append h op)
  exact hfold ops _ _ hstart

/-- A message below the threshold does nothing. -/
theorem message_off (hoff : site.enabled = false) (ops : List Operand) :
    message site ops = ⟨false, site.stack, 0, [], []⟩ := by
  have hstart : LogMessage.construct site = ⟨false, site.stack, 0, [], []⟩ := by
    unfold LogMessage.construct
    rw [hoff]
    rfl
  unfold message
  rw [hstart]
  induction ops with
  | nil => rfl
  | cons op ops ih =>
    rw [List.foldl_cons]
    have hop : (⟨false, site.stack, 0, [], []⟩ : LogMessage).append op =
        ⟨false, site.stack, 0, [], []⟩ := by
      cases op with
      | str s => cases s <;> rfl
      | _ => rfl
    rw [hop]
    exact ih

/-- What the destructor does with a buffer that holds the first 510 characters of a text. -/
structure Flushed (r : LogMessage × Option (List Char)) (t : List Char) : Prop where
  emitted : r.2 = some (t.take 510 ++ ['\n'])
  sizes : ∀ z ∈ r.1.sizes, 1 ≤ z
  indices : ∀ i ∈ r.1.indices, i < bufSize

theorem flushed (h : Holds m t) : Flushed m.flush t := by
  have hpos := h.pos
  have hroom : m.pos < bufSize - 1 := by
    unfold bufSize
    omega
  unfold LogMessage.flush
  rw [if_pos h.on, if_pos hroom]
  refine ⟨?_, h.sizes, indices_put (indices_put h.indices ?_) ?_⟩
  · show some (load (store (store m.buf m.pos ['\n']) (m.pos + 1) ['\x00']) (m.pos + 1)) = _
    rw [load_store_of_le (Nat.le_refl _), load_store (Nat.le_refl 1), h.loaded]
    rfl
  · rw [List.length_singleton]
    omega
  · show m.pos + 1 + ['\x00'].length ≤ bufSize
    rw [List.length_singleton]
    omega

/-- The line of a log statement, and every access to the buffer on the way. -/
structure TruncationLaw (site : Site) (ops : List Operand) : Prop where
  /-- One line, if the level is enabled. -/
  emitted : (logged site ops).2 =
    if site.enabled then some ((site.text ++ textOf ops).take 510 ++ ['\n']) else none
  /-- Before the destructor, after any number of operands. -/
  pos_le : ∀ done rest, ops = done ++ rest → (message site done).pos ≤ 510
  /-- No size argument has gone below zero. -/
  sizes : ∀ z ∈ (logged site ops).1.sizes, 1 ≤ z
  indices : ∀ i ∈ (logged site ops).1.indices, i < bufSize
  /-- However the text is divided among operands. -/
  split : ∀ ops', textOf ops' = textOf ops → (logged site ops').2 = (logged site ops).2

/-- **Log line truncation**, for every site, all operands, and the `errno` suffix. -/
theorem truncation_law (site : Site) (strerror : Int → List Char) (ops : List Operand)
    (errNum : Option Int) : TruncationLaw site (allOperands strerror ops errNum) := by
  generalize allOperands strerror ops errNum = ops
  cases hon : site.enabled with
  | true =>
    have hflushed : ∀ ops, Flushed (logged site ops) (site.text ++ textOf ops) :=
      fun ops => flushed (holds_message hon ops)
    refine
      { emitted := ?_, pos_le := fun done rest _ => ?_, sizes := (hflushed ops).sizes,
        indices := (hflushed ops).indices, split := fun ops' htext => ?_ }
    · rw [hon, if_pos rfl]
      exact (hflushed ops).emitted
    · rw [(holds_message hon done).pos]
      exact Nat.min_le_right _ _
    · rw [(hflushed ops').emitted, (hflushed ops).emitted, htext]
  | false =>
    have hlogged : ∀ ops, logged site ops = (⟨false, site.stack, 0, [], []⟩, none) := fun ops => by
      rw [logged, message_off hon]
      rfl
    refine
      { emitted := ?_, pos_le := fun done rest _ => ?_, sizes := fun z hz => ?_,
        indices := fun i hi => ?_, split := fun ops' _ => ?_ }
    · rw [hlogged, hon]
      rfl
    · rw [message_off hon]
      exact Nat.zero_le _
    · rw [hlogged] at hz
      exact absurd hz List.not_mem_nil
    · rw [hlogged] at hi
      exact absurd hi List.not_mem_nil
    · rw [hlogged, hlogged]

end CameraStreamer.Log
