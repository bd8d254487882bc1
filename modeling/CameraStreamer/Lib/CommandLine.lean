import Mathlib.Data.List.TakeWhile
import Mathlib.Algebra.Ring.Int.Defs

/-!
# Command lines

Options as a C program sees them: `(opt, optarg)` in the order given, the value of each a string.

* `foldlM_last`: where each step overwrites a field on its own option only, the field ends as
  what was last given for the option, or as it was.
* `foldlM_ok_iff`, `foldlM_error_iff`: where what a step makes of an option does not depend on the
  state, the loop goes through if every option does, and fails as the first that does not.
* `numeral`: the integer a decimal numeral denotes. **`atoi_of_numeral`**: `atoi` returns it as
  far as `int` holds it, and so does `std::stoi` (`stoi_of_numeral`).
* `getoptLong`: `getopt_long` with its permutation of the words, for the programs that only look at
  the option characters and `optarg`.
-/

namespace Lib.CommandLine

/-- An option character and its `optarg`, empty if the option takes none. -/
abbrev Given := Char × List Char

/-! ## The last value wins -/

/-- The value last given for an option. -/
def lastGiven (opt : Char) : List Given → Option (List Char)
  | [] => none
  | (c, s) :: rest => (lastGiven opt rest).or (if c = opt then some s else none)

theorem lastGiven_cons (opt c : Char) (s : List Char) (rest : List Given) :
    lastGiven opt ((c, s) :: rest) = (lastGiven opt rest).or (if c = opt then some s else none) :=
  rfl

theorem mem_of_lastGiven {opt : Char} {given : List Given} {s : List Char}
    (h : lastGiven opt given = some s) : (opt, s) ∈ given := by
  induction given with
  | nil => exact absurd h (by simp [lastGiven])
  | cons g rest ih =>
    obtain ⟨c, x⟩ := g
    rcases Option.or_eq_some_iff.mp h with hrest | ⟨-, hhere⟩
    · exact List.mem_cons_of_mem _ (ih hrest)
    · obtain ⟨rfl, hx⟩ := Option.ite_none_right_eq_some.mp hhere
      rw [Option.some.inj hx]
      exact List.mem_cons_self

section Fold

variable {σ ε α : Type} {step : σ → Given → Except ε σ} {get : σ → α} {opt : Char}
  {f : List Char → α}

/-- **The last value wins.** -/
theorem foldlM_last
    (hstep : ∀ s s' c x, step s (c, x) = .ok s' → get s' = if c = opt then f x else get s)
    {given : List Given} {s s' : σ} (h : given.foldlM step s = .ok s') :
    get s' = ((lastGiven opt given).map f).getD (get s) := by
  induction given generalizing s with
  | nil =>
    rw [Except.ok.inj h]
    rfl
  | cons g rest ih =>
    obtain ⟨c, x⟩ := g
    rw [List.foldlM_cons] at h
    cases hone : step s (c, x) with
    | error e => rw [hone] at h; exact absurd h nofun
    | ok t =>
      rw [hone] at h
      rw [ih h, hstep s t c x hone, lastGiven_cons]
      cases lastGiven opt rest with
      | some y => rfl
      | none =>
        rw [Option.none_or]
        split <;> rfl

end Fold

section Verdict

variable {σ ε : Type} {step : σ → Given → Except ε σ} {verdict : Given → Option ε}

/-- **The loop goes through** if every option does. -/
theorem foldlM_ok_iff
    (hstep : ∀ s g, (∃ s', step s g = .ok s') ↔ verdict g = none) {given : List Given} {s : σ} :
    (∃ s', given.foldlM step s = .ok s') ↔ ∀ g ∈ given, verdict g = none := by
  induction given generalizing s with
  | nil => exact ⟨fun _ g hg => absurd hg List.not_mem_nil, fun _ => ⟨s, rfl⟩⟩
  | cons g rest ih =>
    rw [List.foldlM_cons, List.forall_mem_cons, ← hstep s g]
    constructor
    · rintro ⟨s', h⟩
      cases hone : step s g with
      | error e => rw [hone] at h; cases h
      | ok t =>
        rw [hone] at h
        exact ⟨⟨t, rfl⟩, ih.mp ⟨s', h⟩⟩
    · rintro ⟨⟨t, hone⟩, hrest⟩
      rw [hone]
      exact ih.mpr hrest

/-- **It fails** as the first option that does not go through. -/
theorem foldlM_error_iff
    (hok : ∀ s g, (∃ s', step s g = .ok s') ↔ verdict g = none)
    (herror : ∀ s g e, step s g = .error e ↔ verdict g = some e) {given : List Given} {s : σ}
    {e : ε} : given.foldlM step s = .error e ↔
      ∃ before g after, given = before ++ g :: after ∧ (∀ x ∈ before, verdict x = none) ∧
        verdict g = some e := by
  induction given generalizing s with
  | nil =>
    refine ⟨fun h => (by cases h), ?_⟩
    rintro ⟨before, g, after, h, -⟩
    exact absurd h (List.append_ne_nil_of_right_ne_nil before (List.cons_ne_nil g after)).symm
  | cons g rest ih =>
    rw [List.foldlM_cons]
    cases hone : step s g with
    | error e' =>
      have hg := (herror s g e').mp hone
      constructor
      · intro h
        cases h
        exact ⟨[], g, rest, rfl, fun x hx => absurd hx List.not_mem_nil, hg⟩
      · rintro ⟨before, x, after, heq, hbefore, hx⟩
        cases before with
        | nil =>
          rw [List.nil_append] at heq
          rw [← (List.cons_eq_cons.mp heq).1, hg] at hx
          cases hx
          rfl
        | cons y before =>
          rw [List.cons_append] at heq
          have hy := hbefore y List.mem_cons_self
          rw [← (List.cons_eq_cons.mp heq).1, hg] at hy
          cases hy
    | ok t =>
      have hg := (hok s g).mp ⟨t, hone⟩
      constructor
      · intro h
        obtain ⟨before, x, after, rfl, hbefore, hx⟩ := ih.mp h
        exact ⟨g :: before, x, after, rfl, List.forall_mem_cons.mpr ⟨hg, hbefore⟩, hx⟩
      · rintro ⟨before, x, after, heq, hbefore, hx⟩
        cases before with
        | nil =>
          rw [List.nil_append] at heq
          rw [← (List.cons_eq_cons.mp heq).1, hg] at hx
          cases hx
        | cons y before =>
          rw [List.cons_append] at heq
          exact ih.mpr ⟨before, x, after, (List.cons_eq_cons.mp heq).2,
            fun z hz => hbefore z (List.mem_cons_of_mem y hz), hx⟩

end Verdict

/-! ## Numerals -/

/-- The value of a run of digits. -/
def digitsValue (ds : List Char) : Nat := ds.foldl (fun n c => 10 * n + (c.toNat - '0'.toNat)) 0

/-- The number a non-empty run of digits denotes. -/
def natural (ds : List Char) : Option Nat :=
  if !ds.isEmpty && ds.all Char.isDigit then some (digitsValue ds) else none

/-- The integer a decimal numeral denotes: digits with an optional sign. -/
def numeral : List Char → Option Int
  | '-' :: ds => (natural ds).map fun n : Nat => -(n : Int)
  | '+' :: ds => (natural ds).map fun n : Nat => (n : Int)
  | ds => (natural ds).map fun n : Nat => (n : Int)

/-- `isspace`. -/
def isSpace (c : Char) : Bool := c ∈ [' ', '\t', '\n', '\x0b', '\x0c', '\r']

/-- `strtol` in base 10, before it is cut to the range of `long`. -/
def strtol (s : List Char) : Int :=
  match s.dropWhile isSpace with
  | '-' :: ds => -(digitsValue (ds.takeWhile Char.isDigit) : Int)
  | '+' :: ds => digitsValue (ds.takeWhile Char.isDigit)
  | ds => digitsValue (ds.takeWhile Char.isDigit)

/-- `atoi`. The standard leaves a value that `int` does not hold undefined; here it wraps. -/
def atoi (s : List Char) : Int := (strtol s).bmod UInt32.size

theorem natural_eq_some {ds : List Char} {n : Nat} (h : natural ds = some n) :
    ds ≠ [] ∧ (∀ c ∈ ds, c.isDigit = true) ∧ n = digitsValue ds := by
  obtain ⟨hds, hn⟩ := Option.ite_none_right_eq_some.mp h
  rw [Bool.and_eq_true, Bool.not_eq_true', List.isEmpty_eq_false_iff, List.all_eq_true] at hds
  exact ⟨hds.1, hds.2, (Option.some.inj hn).symm⟩

theorem takeWhile_digits {ds : List Char} (h : ∀ c ∈ ds, c.isDigit = true) :
    ds.takeWhile Char.isDigit = ds :=
  List.takeWhile_eq_self_iff.mpr h

theorem isSpace_of_isDigit {c : Char} (h : c.isDigit = true) : isSpace c = false := by
  rw [Bool.eq_false_iff]
  intro hs
  simp only [isSpace, List.mem_cons, List.not_mem_nil, or_false, decide_eq_true_eq] at hs
  rcases hs with rfl | rfl | rfl | rfl | rfl | rfl <;> exact absurd h (by decide)

/-- A numeral is read whole. -/
theorem strtol_of_numeral {s : List Char} {v : Int} (h : numeral s = some v) : strtol s = v := by
  unfold numeral at h
  split at h
  · rename_i ds
    obtain ⟨n, hn, rfl⟩ := Option.map_eq_some_iff.mp h
    obtain ⟨-, hall, rfl⟩ := natural_eq_some hn
    have hdrop : ('-' :: ds).dropWhile isSpace = '-' :: ds := rfl
    simp only [strtol, hdrop, takeWhile_digits hall]
  · rename_i ds
    obtain ⟨n, hn, rfl⟩ := Option.map_eq_some_iff.mp h
    obtain ⟨-, hall, rfl⟩ := natural_eq_some hn
    have hdrop : ('+' :: ds).dropWhile isSpace = '+' :: ds := rfl
    simp only [strtol, hdrop, takeWhile_digits hall]
  · obtain ⟨n, hn, rfl⟩ := Option.map_eq_some_iff.mp h
    obtain ⟨hne, hall, rfl⟩ := natural_eq_some hn
    cases s with
    | nil => exact absurd rfl hne
    | cons c ds =>
      have hc := hall c List.mem_cons_self
      have hdrop : (c :: ds).dropWhile isSpace = c :: ds := by
        rw [List.dropWhile_cons_of_neg (by simp [isSpace_of_isDigit hc])]
      unfold strtol
      rw [hdrop]
      split
      · rename_i heq
        rw [(List.cons_eq_cons.mp heq).1] at hc
        exact absurd hc (by decide)
      · rename_i heq
        rw [(List.cons_eq_cons.mp heq).1] at hc
        exact absurd hc (by decide)
      · rw [takeWhile_digits hall]

/-- **`atoi` of a numeral** that `int` holds. -/
theorem atoi_of_numeral {s : List Char} {v : Int} (h : numeral s = some v) (hlo : -2 ^ 31 ≤ v)
    (hhi : v < 2 ^ 31) : atoi s = v := by
  unfold atoi
  have hsize : UInt32.size = 4294967296 := rfl
  rw [strtol_of_numeral h, hsize]
  exact Int.bmod_eq_of_le (by omega) (by omega)

/-- What `std::stoi` throws. -/
inductive StoiError
  | invalidArgument
  | outOfRange
  deriving DecidableEq, Repr

/-- `strtol` finds digits. -/
def converts (s : List Char) : Bool :=
  match s.dropWhile isSpace with
  | '-' :: ds => (ds.takeWhile Char.isDigit) ≠ []
  | '+' :: ds => (ds.takeWhile Char.isDigit) ≠ []
  | ds => (ds.takeWhile Char.isDigit) ≠ []

/-- `std::stoi`: a value `int` does not hold is refused, and so is a string without digits. -/
def stoi (s : List Char) : Except StoiError Int :=
  if !converts s then .error .invalidArgument
  else if strtol s < -2 ^ 31 ∨ 2 ^ 31 ≤ strtol s then .error .outOfRange
  else .ok (strtol s)

theorem converts_of_numeral {s : List Char} {v : Int} (h : numeral s = some v) :
    converts s = true := by
  unfold numeral at h
  split at h
  · rename_i ds
    obtain ⟨n, hn, -⟩ := Option.map_eq_some_iff.mp h
    obtain ⟨hne, hall, -⟩ := natural_eq_some hn
    have hdrop : ('-' :: ds).dropWhile isSpace = '-' :: ds := rfl
    simpa only [converts, hdrop, takeWhile_digits hall, decide_eq_true_eq] using hne
  · rename_i ds
    obtain ⟨n, hn, -⟩ := Option.map_eq_some_iff.mp h
    obtain ⟨hne, hall, -⟩ := natural_eq_some hn
    have hdrop : ('+' :: ds).dropWhile isSpace = '+' :: ds := rfl
    simpa only [converts, hdrop, takeWhile_digits hall, decide_eq_true_eq] using hne
  · obtain ⟨n, hn, -⟩ := Option.map_eq_some_iff.mp h
    obtain ⟨hne, hall, -⟩ := natural_eq_some hn
    cases s with
    | nil => exact absurd rfl hne
    | cons c ds =>
      have hc := hall c List.mem_cons_self
      have hdrop : (c :: ds).dropWhile isSpace = c :: ds := by
        rw [List.dropWhile_cons_of_neg (by simp [isSpace_of_isDigit hc])]
      unfold converts
      rw [hdrop]
      split
      · rename_i heq
        rw [(List.cons_eq_cons.mp heq).1] at hc
        exact absurd hc (by decide)
      · rename_i heq
        rw [(List.cons_eq_cons.mp heq).1] at hc
        exact absurd hc (by decide)
      · rw [takeWhile_digits hall]
        exact decide_eq_true hne

/-- **`std::stoi` of a numeral.** -/
theorem stoi_of_numeral {s : List Char} {v : Int} (h : numeral s = some v) :
    stoi s = if -2 ^ 31 ≤ v ∧ v < 2 ^ 31 then .ok v else .error .outOfRange := by
  unfold stoi
  rw [converts_of_numeral h, strtol_of_numeral h, Bool.not_true, if_neg Bool.false_ne_true]
  by_cases hin : -2 ^ 31 ≤ v ∧ v < 2 ^ 31
  · rw [if_pos hin, if_neg (by omega)]
  · rw [if_neg hin, if_pos (by omega)]

/-! ## `getopt_long` -/

/-- A row of the table of long options. -/
structure LongOption where
  name : String
  hasArg : Bool
  val : Char

/-- The short options, each with whether it takes an argument, and the long ones. -/
structure Options where
  shorts : List (Char × Bool)
  longs : List LongOption

namespace Options

/-- A long option by its name or by an abbreviation that fits no other. -/
def findLong (o : Options) (name : List Char) : Option LongOption :=
  match o.longs.find? fun l => l.name.toList == name with
  | some l => some l
  | none =>
    match o.longs.filter fun l => name.isPrefixOf l.name.toList with
    | [l] => some l
    | _ => none

/-- The options of one word of short options, and the last of them if its argument is the next
word. -/
def cluster (o : Options) : List Char → List Given × Option Char
  | [] => ([], none)
  | c :: cs =>
    match o.shorts.find? fun s => s.1 == c with
    | none => (('?', []) :: (o.cluster cs).1, (o.cluster cs).2)
    | some (_, false) => ((c, []) :: (o.cluster cs).1, (o.cluster cs).2)
    | some (_, true) => if cs = [] then ([], some c) else ([(c, cs)], none)

/-- `getopt_long`, called until it returns -1. `'?'` stands for an unknown option or a missing
argument too. Words that are no options are passed over, and `--` ends the options. -/
def getoptLong (o : Options) : List (List Char) → List Given
  | [] => []
  | ['-', '-'] :: _ => []
  | ('-' :: '-' :: body) :: rest =>
    match o.findLong (body.takeWhile (· != '=')), body.dropWhile (· != '=') with
    | none, _ => ('?', []) :: o.getoptLong rest
    | some l, [] =>
      if l.hasArg then
        match rest with
        | [] => [('?', [])]
        | arg :: rest => (l.val, arg) :: o.getoptLong rest
      else (l.val, []) :: o.getoptLong rest
    | some l, _ :: arg =>
      if l.hasArg then (l.val, arg) :: o.getoptLong rest else ('?', []) :: o.getoptLong rest
  | ('-' :: c :: cs) :: rest =>
    match o.cluster (c :: cs) with
    | (given, none) => given ++ o.getoptLong rest
    | (given, some opt) =>
      match rest with
      | [] => given ++ [('?', [])]
      | arg :: rest => given ++ (opt, arg) :: o.getoptLong rest
  | _ :: rest => o.getoptLong rest

end Options

end Lib.CommandLine
