import CameraStreamer.Lib.CommandLine
import Mathlib.Data.BitVec

/-!
# The client's command line

Model of `parseArgs` (`src/main.cpp:136-224`): the loop over `getopt_long`, the conversions of the
numbers, and the checks behind the loop. `size_t` has `w` bits. Strings are lists of characters.

`getopt_long` is a parameter: it turns the words of the command line into options with their
`optarg`, and what is proved holds whatever it makes of them. `clientOptions` is the table that
`parseArgs` gives it.

* `parseOpt_writes`: an option changes its own field only.
* `parsed_fields`: so after the loop each field is the conversion of the value last given.
* **`accepted_meant_iff`**: on an accepted command line the fields are the integers last given
  exactly when these lie in the ranges of the fields: 16 bits for the dimensions and the port, not
  negative for the frame rate and the queue size. The checks come after the casts;
  `accepted_counterexample` is a width of 65537, which is taken for 1.
-/

namespace CameraStreamer.Client

open Lib.CommandLine

variable {w : Nat}

/-- `Config` (`main.cpp:74-94`). -/
structure Config (w : Nat) where
  device : List Char
  width : UInt16
  height : UInt16
  fps : UInt32
  useJpeg : Bool
  jpegQuality : Int
  host : Option (List Char)
  port : UInt16
  caPath : Option (List Char)
  queueSize : BitVec w
  verbose : Bool

/-- The defaults (`main.cpp:64-71`). -/
def defaultConfig (w : Nat) : Config w where
  device := ['0']
  width := 1280
  height := 720
  fps := 30
  useJpeg := true
  jpegQuality := 85
  host := none
  port := 4433
  caPath := none
  queueSize := BitVec.ofNat w 128
  verbose := false

/-- Why a command line is refused. -/
inductive ArgError
  | usage
  | jpegQuality
  | hostRequired
  | dimensions
  | fps
  | queueSize
  deriving DecidableEq, Repr

/-- What is printed; `usage` and `hostRequired` print the usage too. -/
def ArgError.text : ArgError → String
  | .usage => ""
  | .jpegQuality => "Error: JPEG quality must be 1-100\n"
  | .hostRequired => "Error: --host is required\n\n"
  | .dimensions => "Error: invalid dimensions\n"
  | .fps => "Error: invalid fps\n"
  | .queueSize => "Error: queue size must be at least 2\n"

/-- The options (`main.cpp:137-155`). -/
def clientOptions : Options where
  shorts := [('d', true), ('W', true), ('H', true), ('f', true), ('J', false), ('Q', true),
    ('h', true), ('p', true), ('c', true), ('q', true), ('v', false), ('?', false)]
  longs := [⟨"device", true, 'd'⟩, ⟨"width", true, 'W'⟩, ⟨"height", true, 'H'⟩, ⟨"fps", true, 'f'⟩,
    ⟨"no-jpeg", false, 'J'⟩, ⟨"jpeg-quality", true, 'Q'⟩, ⟨"host", true, 'h'⟩,
    ⟨"port", true, 'p'⟩, ⟨"ca", true, 'c'⟩, ⟨"queue-size", true, 'q'⟩, ⟨"verbose", false, 'v'⟩,
    ⟨"help", false, '?'⟩]

/-- The body of the loop (`main.cpp:157-199`). -/
def parseOpt (config : Config w) : Given → Except ArgError (Config w)
  | ('d', arg) => .ok { config with device := arg }
  | ('W', arg) => .ok { config with width := UInt16.ofInt (atoi arg) }
  | ('H', arg) => .ok { config with height := UInt16.ofInt (atoi arg) }
  | ('f', arg) => .ok { config with fps := UInt32.ofInt (atoi arg) }
  | ('J', _) => .ok { config with useJpeg := false }
  | ('Q', arg) =>
    if atoi arg < 1 ∨ 100 < atoi arg then .error .jpegQuality
    else .ok { config with jpegQuality := atoi arg }
  | ('h', arg) => .ok { config with host := some arg }
  | ('p', arg) => .ok { config with port := UInt16.ofInt (atoi arg) }
  | ('c', arg) => .ok { config with caPath := some arg }
  | ('q', arg) => .ok { config with queueSize := BitVec.ofInt w (atoi arg) }
  | ('v', _) => .ok { config with verbose := true }
  | _ => .error .usage

/-- The checks behind the loop (`main.cpp:202-223`). -/
def validate (config : Config w) : Except ArgError (Config w) :=
  if config.host = none ∨ config.host = some [] then .error .hostRequired
  else if config.width = 0 ∨ config.height = 0 then .error .dimensions
  else if config.fps = 0 then .error .fps
  else if config.queueSize.toNat < 2 then .error .queueSize
  else .ok config

/-- `parseArgs`. -/
def parseArgs (w : Nat) (getopt : List (List Char) → List Given) (argv : List (List Char)) :
    Except ArgError (Config w) := do
  let config ← (getopt argv).foldlM parseOpt (defaultConfig w)
  validate config

/-! ## The loop -/

/-- What an accepted option does to the numbers. -/
structure Writes (config config' : Config w) (opt : Char) (arg : List Char) : Prop where
  width : config'.width = if opt = 'W' then UInt16.ofInt (atoi arg) else config.width
  height : config'.height = if opt = 'H' then UInt16.ofInt (atoi arg) else config.height
  fps : config'.fps = if opt = 'f' then UInt32.ofInt (atoi arg) else config.fps
  jpegQuality : config'.jpegQuality = if opt = 'Q' then atoi arg else config.jpegQuality
  port : config'.port = if opt = 'p' then UInt16.ofInt (atoi arg) else config.port
  queueSize : config'.queueSize =
    if opt = 'q' then BitVec.ofInt w (atoi arg) else config.queueSize

theorem parseOpt_writes {config config' : Config w} {opt : Char} {arg : List Char}
    (h : parseOpt config (opt, arg) = .ok config') : Writes config config' opt arg := by
  unfold parseOpt at h
  split at h
  case h_6 =>
    rename_i heq
    obtain ⟨rfl, rfl⟩ := Prod.mk.inj heq
    split at h
    · exact absurd h nofun
    · cases h
      exact ⟨rfl, rfl, rfl, rfl, rfl, rfl⟩
  case h_12 => exact absurd h nofun
  all_goals
    rename_i heq
    obtain ⟨rfl, rfl⟩ := Prod.mk.inj heq
    cases h
    exact ⟨rfl, rfl, rfl, rfl, rfl, rfl⟩

/-! ## What was meant -/

/-- The options with a number. -/
def numeric : List Char := ['W', 'H', 'f', 'Q', 'p', 'q']

/-- The numbers given are decimal integers in the range of `int`. -/
def Numerals (given : List Given) : Prop :=
  ∀ opt arg, (opt, arg) ∈ given → opt ∈ numeric →
    ∃ v, numeral arg = some v ∧ -2 ^ 31 ≤ v ∧ v < 2 ^ 31

/-- The integer last given for an option, or its default. -/
def wanted (opt : Char) (dflt : Int) (given : List Given) : Int :=
  ((lastGiven opt given).bind numeral).getD dflt

/-- The numbers of the configuration are the integers last given. -/
structure Meant (config : Config w) (given : List Given) : Prop where
  width : (config.width.toNat : Int) = wanted 'W' 1280 given
  height : (config.height.toNat : Int) = wanted 'H' 720 given
  fps : (config.fps.toNat : Int) = wanted 'f' 30 given
  jpegQuality : config.jpegQuality = wanted 'Q' 85 given
  port : (config.port.toNat : Int) = wanted 'p' 4433 given
  queueSize : (config.queueSize.toNat : Int) = wanted 'q' 128 given

/-- The integers last given fit where the casts put them. -/
structure InRange (given : List Given) : Prop where
  width : 0 ≤ wanted 'W' 1280 given ∧ wanted 'W' 1280 given < 2 ^ 16
  height : 0 ≤ wanted 'H' 720 given ∧ wanted 'H' 720 given < 2 ^ 16
  fps : 0 ≤ wanted 'f' 30 given
  port : 0 ≤ wanted 'p' 4433 given ∧ wanted 'p' 4433 given < 2 ^ 16
  queueSize : 0 ≤ wanted 'q' 128 given

section

variable {given : List Given} {opt : Char} {dflt : Int}

theorem wanted_lt (hn : Numerals given) (hopt : opt ∈ numeric) (hdflt : dflt < 2 ^ 31) :
    wanted opt dflt given < 2 ^ 31 := by
  unfold wanted
  cases hl : lastGiven opt given with
  | none => exact hdflt
  | some arg =>
    obtain ⟨v, hv, -, hlt⟩ := hn opt arg (mem_of_lastGiven hl) hopt
    rw [Option.bind_some, hv]
    exact hlt

/-- The conversion of the value last given is that of the integer wanted. -/
theorem convert_last {α : Type} (hn : Numerals given) (hopt : opt ∈ numeric) (f : Int → α) :
    ((lastGiven opt given).map fun arg => f (atoi arg)).getD (f dflt) =
      f (wanted opt dflt given) := by
  unfold wanted
  cases hl : lastGiven opt given with
  | none => rfl
  | some arg =>
    obtain ⟨v, hv, hlo, hhi⟩ := hn opt arg (mem_of_lastGiven hl) hopt
    rw [Option.map_some, Option.getD_some, Option.bind_some, hv, Option.getD_some,
      atoi_of_numeral hv hlo hhi]

/-- After the loop a field is the conversion of the integer wanted. -/
theorem parsed_field {α : Type} {config : Config w} (hn : Numerals given)
    (h : given.foldlM parseOpt (defaultConfig w) = .ok config) (hopt : opt ∈ numeric)
    {get : Config w → α} {f : Int → α} (hdflt : get (defaultConfig w) = f dflt)
    (hget : ∀ s s' c x, parseOpt s (c, x) = .ok s' →
      get s' = if c = opt then f (atoi x) else get s) :
    get config = f (wanted opt dflt given) := by
  rw [foldlM_last hget h, hdflt]
  exact convert_last hn hopt f

/-- After the loop the numbers are the conversions of the integers wanted. -/
structure Converted (config : Config w) (given : List Given) : Prop where
  width : config.width = UInt16.ofInt (wanted 'W' 1280 given)
  height : config.height = UInt16.ofInt (wanted 'H' 720 given)
  fps : config.fps = UInt32.ofInt (wanted 'f' 30 given)
  jpegQuality : config.jpegQuality = wanted 'Q' 85 given
  port : config.port = UInt16.ofInt (wanted 'p' 4433 given)
  queueSize : config.queueSize = BitVec.ofInt w (wanted 'q' 128 given)

theorem parsed_fields {config : Config w} (hn : Numerals given)
    (h : given.foldlM parseOpt (defaultConfig w) = .ok config) : Converted config given where
  width := parsed_field hn h (by simp [numeric]) rfl fun _ _ _ _ hs => (parseOpt_writes hs).width
  height := parsed_field hn h (by simp [numeric]) rfl fun _ _ _ _ hs => (parseOpt_writes hs).height
  fps := parsed_field hn h (by simp [numeric]) rfl fun _ _ _ _ hs => (parseOpt_writes hs).fps
  jpegQuality := parsed_field (f := id) hn h (by simp [numeric]) rfl fun _ _ _ _ hs =>
    (parseOpt_writes hs).jpegQuality
  port := parsed_field hn h (by simp [numeric]) rfl fun _ _ _ _ hs => (parseOpt_writes hs).port
  queueSize := parsed_field (f := BitVec.ofInt w) hn h (by simp [numeric]) rfl fun _ _ _ _ hs =>
    (parseOpt_writes hs).queueSize

/-! ## The casts -/

/-- A number survives a cast to an unsigned type if and only if it fits. -/
theorem emod_eq_self_iff {v n : Int} (hn : 0 < n) : ((v % n).toNat : Int) = v ↔ 0 ≤ v ∧ v < n := by
  have hlo := Int.emod_nonneg v (by omega : n ≠ 0)
  rw [Int.toNat_of_nonneg hlo]
  constructor
  · intro heq
    rw [← heq]
    exact ⟨hlo, Int.emod_lt_of_pos v hn⟩
  · rintro ⟨hv, hlt⟩
    exact Int.emod_eq_of_lt hv hlt

theorem uint16_iff (v : Int) : ((UInt16.ofInt v).toNat : Int) = v ↔ 0 ≤ v ∧ v < 2 ^ 16 := by
  have hlt := Int.emod_lt_of_pos v (show (0 : Int) < 2 ^ 16 by omega)
  have htoNat : (UInt16.ofInt v).toNat = (v % 2 ^ 16).toNat := by
    rw [UInt16.ofInt, UInt16.toNat_ofNat']
    omega
  rw [htoNat]
  exact emod_eq_self_iff (by omega)

theorem uint32_iff {v : Int} (hv : v < 2 ^ 31) : ((UInt32.ofInt v).toNat : Int) = v ↔ 0 ≤ v := by
  have hlt := Int.emod_lt_of_pos v (show (0 : Int) < 2 ^ 32 by omega)
  have htoNat : (UInt32.ofInt v).toNat = (v % 2 ^ 32).toNat := by
    rw [UInt32.ofInt, UInt32.toNat_ofNat']
    omega
  rw [htoNat, emod_eq_self_iff (by omega)]
  exact and_iff_left (by omega)

theorem size_iff (hw : 32 ≤ w) {v : Int} (hv : v < 2 ^ 31) :
    ((BitVec.ofInt w v).toNat : Int) = v ↔ 0 ≤ v := by
  have hpow : (2 : Int) ^ 32 ≤ 2 ^ w := by
    exact_mod_cast Nat.pow_le_pow_right (show 0 < 2 by omega) hw
  have hcast : ((2 ^ w : Nat) : Int) = 2 ^ w := by norm_cast
  rw [BitVec.toNat_ofInt, hcast, emod_eq_self_iff (by omega)]
  exact and_iff_left (by omega)

/-! ## Accepted command lines -/

theorem validate_eq {config config' : Config w} (h : validate config = .ok config') :
    config' = config := by
  unfold validate at h
  split_ifs at h
  exact (Except.ok.inj h).symm

/-- The loop went through, and the checks changed nothing. -/
theorem parseArgs_cases {getopt : List (List Char) → List Given} {argv : List (List Char)}
    {config : Config w} (h : parseArgs w getopt argv = .ok config) :
    (getopt argv).foldlM parseOpt (defaultConfig w) = .ok config := by
  unfold parseArgs at h
  cases hloop : (getopt argv).foldlM parseOpt (defaultConfig w) with
  | error e => rw [hloop] at h; exact absurd h nofun
  | ok config' =>
    rw [hloop] at h
    rw [validate_eq h]

/-- **Accepted command lines mean what they say** exactly when the integers last given fit, for
every `getopt_long` and every command line whose numbers are decimal and in the range of `int`. -/
theorem accepted_meant_iff (hw : 32 ≤ w) (getopt : List (List Char) → List Given)
    (argv : List (List Char)) {config : Config w} (hn : Numerals (getopt argv))
    (h : parseArgs w getopt argv = .ok config) :
    Meant config (getopt argv) ↔ InRange (getopt argv) := by
  have hc := parsed_fields hn (parseArgs_cases h)
  have hf : wanted 'f' 30 (getopt argv) < 2 ^ 31 := wanted_lt hn (by simp [numeric]) (by omega)
  have hq : wanted 'q' 128 (getopt argv) < 2 ^ 31 := wanted_lt hn (by simp [numeric]) (by omega)
  constructor
  · rintro ⟨hwidth, hheight, hfps, -, hport, hqueue⟩
    rw [hc.width, uint16_iff] at hwidth
    rw [hc.height, uint16_iff] at hheight
    rw [hc.fps, uint32_iff hf] at hfps
    rw [hc.port, uint16_iff] at hport
    rw [hc.queueSize, size_iff hw hq] at hqueue
    exact ⟨hwidth, hheight, hfps, hport, hqueue⟩
  · rintro ⟨hwidth, hheight, hfps, hport, hqueue⟩
    refine ⟨?_, ?_, ?_, hc.jpegQuality, ?_, ?_⟩
    · rwa [hc.width, uint16_iff]
    · rwa [hc.height, uint16_iff]
    · rwa [hc.fps, uint32_iff hf]
    · rwa [hc.port, uint16_iff]
    · rwa [hc.queueSize, size_iff hw hq]

/-- Options in any order, one of them given twice. -/
theorem accepted_meant_iff_repeated : ∃ config : Config 64,
    parseArgs 64 clientOptions.getoptLong
      ["--width".toList, "70000".toList, "--host=h".toList, "-W640".toList] = .ok config ∧
    (Meant config [('W', "70000".toList), ('h', ['h']), ('W', "640".toList)] ↔
      InRange [('W', "70000".toList), ('h', ['h']), ('W', "640".toList)]) := by
  have hgiven : clientOptions.getoptLong
      ["--width".toList, "70000".toList, "--host=h".toList, "-W640".toList] =
      [('W', "70000".toList), ('h', ['h']), ('W', "640".toList)] := by decide
  have hparse : ∃ config : Config 64, parseArgs 64 clientOptions.getoptLong
      ["--width".toList, "70000".toList, "--host=h".toList, "-W640".toList] = .ok config :=
    ⟨_, rfl⟩
  obtain ⟨config, hparse⟩ := hparse
  refine ⟨config, hparse, ?_⟩
  rw [← hgiven]
  refine accepted_meant_iff (by decide) _ _ ?_ hparse
  rw [hgiven]
  intro opt arg hm hopt
  rcases List.mem_cons.mp hm with heq | hm
  · rw [(Prod.mk.inj heq).2]
    exact ⟨70000, rfl, by decide, by decide⟩
  · rcases List.mem_cons.mp hm with heq | hm
    · rw [(Prod.mk.inj heq).1] at hopt
      exact absurd hopt (by decide)
    · rw [(Prod.mk.inj (List.mem_singleton.mp hm)).2]
      exact ⟨640, rfl, by decide, by decide⟩

/-- **An accepted width that was not given**: 65537 is taken for 1. -/
theorem accepted_counterexample : ¬ ∀ (argv : List (List Char)) (config : Config 64),
    Numerals (clientOptions.getoptLong argv) →
      parseArgs 64 clientOptions.getoptLong argv = .ok config →
        Meant config (clientOptions.getoptLong argv) := by
  intro h
  have hgiven : clientOptions.getoptLong
      ["--host".toList, "h".toList, "--width".toList, "65537".toList] =
      [('h', ['h']), ('W', "65537".toList)] := by decide
  have hwidth := (h ["--host".toList, "h".toList, "--width".toList, "65537".toList] _ ?_ rfl).width
  · rw [hgiven] at hwidth
    exact absurd hwidth (by decide)
  · rw [hgiven]
    intro opt arg hm hopt
    rcases List.mem_cons.mp hm with heq | hm
    · rw [(Prod.mk.inj heq).1] at hopt
      exact absurd hopt (by decide)
    · rw [(Prod.mk.inj (List.mem_singleton.mp hm)).2]
      exact ⟨65537, rfl, by decide, by decide⟩

end

end CameraStreamer.Client
