import CameraStreamer.Lib.CommandLine
import CameraStreamer.Server.Serving

/-!
# The server's command line

Model of `parseArgs` of the server (`server/server.cpp:334-378`). Strings are lists of characters,
and `getopt_long` is a parameter as for the client. Unlike the client the server converts the port
with `std::stoi`, and nothing catches what that throws.

* `verdict`: what an option does, whatever came before it.
* **`parse_outcome`**: for every `getopt_long` and every command line, exactly when the program goes
  on and with which configuration, when it prints its usage, and when an exception ends it.
-/

namespace CameraStreamer.Server

open Lib.Machine Lib.CommandLine Lib.Endian Lib.Writes

namespace Args

/-- `Config` (`server.cpp:67-74`). -/
structure Config where
  port : UInt16
  certFile : List Char
  keyFile : List Char
  outputDir : List Char
  saveFrames : Bool
  verbose : Bool
  deriving DecidableEq, Repr

/-- The defaults. -/
def defaultConfig : Config where
  port := 4433
  certFile := []
  keyFile := []
  outputDir := []
  saveFrames := false
  verbose := false

/-- How `parseArgs` ends where it does not return `true`. -/
inductive Stop
  /-- It prints the usage and returns `false`. -/
  | usage
  /-- So it does when `--cert` or `--key` is missing, after a message. -/
  | required
  /-- An exception of `std::stoi` leaves it, and `main`. -/
  | uncaught (e : StoiError)
  deriving DecidableEq, Repr

/-- What is printed before the usage. -/
def Stop.text : Stop → String
  | .required => "Error: --cert and --key are required\n\n"
  | _ => ""

/-- The options (`server.cpp:335-343`). -/
def serverOptions : Options where
  shorts := [('p', true), ('c', true), ('k', true), ('o', true), ('v', false), ('h', false)]
  longs := [⟨"port", true, 'p'⟩, ⟨"cert", true, 'c'⟩, ⟨"key", true, 'k'⟩, ⟨"output", true, 'o'⟩,
    ⟨"verbose", false, 'v'⟩, ⟨"help", false, 'h'⟩]

/-- The body of the loop (`server.cpp:347-368`). -/
def parseOpt (cfg : Config) : Given → Except Stop Config
  | ('p', arg) =>
    match stoi arg with
    | .ok v => .ok { cfg with port := UInt16.ofInt v }
    | .error e => .error (.uncaught e)
  | ('c', arg) => .ok { cfg with certFile := arg }
  | ('k', arg) => .ok { cfg with keyFile := arg }
  | ('o', arg) => .ok { cfg with outputDir := arg, saveFrames := true }
  | ('v', _) => .ok { cfg with verbose := true }
  | _ => .error .usage

/-- The check behind the loop (`server.cpp:371-375`). -/
def validate (cfg : Config) : Except Stop Config :=
  if cfg.certFile = [] ∨ cfg.keyFile = [] then .error .required else .ok cfg

/-- `parseArgs`. -/
def parseArgs (getopt : List (List Char) → List Given) (argv : List (List Char)) :
    Except Stop Config := do
  let cfg ← (getopt argv).foldlM parseOpt defaultConfig
  validate cfg

/-! ## One option -/

/-- What keeps the loop from going on at an option. -/
def verdict : Given → Option Stop
  | ('p', arg) =>
    match stoi arg with
    | .ok _ => none
    | .error e => some (.uncaught e)
  | ('c', _) => none
  | ('k', _) => none
  | ('o', _) => none
  | ('v', _) => none
  | _ => some .usage

/-- What a port converts to: the lower 16 bits. -/
def portOf (arg : List Char) : UInt16 :=
  match stoi arg with
  | .ok v => UInt16.ofInt v
  | .error _ => 0

/-- What an accepted option does to the configuration. -/
structure Writes (cfg cfg' : Config) (opt : Char) (arg : List Char) : Prop where
  port : cfg'.port = if opt = 'p' then portOf arg else cfg.port
  certFile : cfg'.certFile = if opt = 'c' then arg else cfg.certFile
  keyFile : cfg'.keyFile = if opt = 'k' then arg else cfg.keyFile
  outputDir : cfg'.outputDir = if opt = 'o' then arg else cfg.outputDir
  saveFrames : cfg'.saveFrames = if opt = 'o' then true else cfg.saveFrames
  verbose : cfg'.verbose = if opt = 'v' then true else cfg.verbose

/-- An option goes through, or ends the loop, whatever came before it. -/
theorem parseOpt_cases (cfg : Config) (opt : Char) (arg : List Char) :
    (∃ cfg', parseOpt cfg (opt, arg) = .ok cfg' ∧ verdict (opt, arg) = none ∧
      Writes cfg cfg' opt arg) ∨
    ∃ e, parseOpt cfg (opt, arg) = .error e ∧ verdict (opt, arg) = some e := by
  unfold parseOpt
  split
  · rename_i s heq
    obtain ⟨rfl, rfl⟩ := Prod.mk.inj heq
    cases hs : stoi arg with
    | ok v =>
      refine .inl ⟨_, rfl, by simp only [verdict, hs], ?_, rfl, rfl, rfl, rfl, rfl⟩
      rw [if_pos rfl, portOf, hs]
    | error e => exact .inr ⟨_, rfl, by simp only [verdict, hs]⟩
  case h_6 hp hc hk ho hv =>
    refine .inr ⟨_, rfl, ?_⟩
    unfold verdict
    split
    · rename_i heq; exact absurd heq (hp _)
    · rename_i heq; exact absurd heq (hc _)
    · rename_i heq; exact absurd heq (hk _)
    · rename_i heq; exact absurd heq (ho _)
    · rename_i heq; exact absurd heq (hv _)
    · rfl
  all_goals
    rename_i heq
    obtain ⟨rfl, rfl⟩ := Prod.mk.inj heq
    exact .inl ⟨_, rfl, rfl, rfl, rfl, rfl, rfl, rfl, rfl⟩

theorem parseOpt_ok_iff (cfg : Config) (g : Given) :
    (∃ cfg', parseOpt cfg g = .ok cfg') ↔ verdict g = none := by
  rcases parseOpt_cases cfg g.1 g.2 with ⟨cfg', hok, hv, -⟩ | ⟨e, herr, hv⟩
  · exact ⟨fun _ => hv, fun _ => ⟨cfg', hok⟩⟩
  · refine ⟨?_, fun h => (by cases hv.symm.trans h)⟩
    rintro ⟨cfg', hok⟩
    cases herr.symm.trans hok

theorem parseOpt_error_iff (cfg : Config) (g : Given) (e : Stop) :
    parseOpt cfg g = .error e ↔ verdict g = some e := by
  rcases parseOpt_cases cfg g.1 g.2 with ⟨cfg', hok, hv, -⟩ | ⟨e', herr, hv⟩
  · exact ⟨fun h => (by cases hok.symm.trans h), fun h => (by cases hv.symm.trans h)⟩
  · constructor
    · intro h
      cases herr.symm.trans h
      exact hv
    · intro h
      cases hv.symm.trans h
      exact herr

theorem parseOpt_writes {cfg cfg' : Config} {opt : Char} {arg : List Char}
    (h : parseOpt cfg (opt, arg) = .ok cfg') : Writes cfg cfg' opt arg := by
  rcases parseOpt_cases cfg opt arg with ⟨d, hok, -, hw⟩ | ⟨e, herr, -⟩
  · cases hok.symm.trans h
    exact hw
  · cases herr.symm.trans h

/-! ## The loop -/

/-- The configuration the options ask for: each value is the one last given. -/
def configured (given : List Given) : Config where
  port := ((lastGiven 'p' given).map portOf).getD 4433
  certFile := (lastGiven 'c' given).getD []
  keyFile := (lastGiven 'k' given).getD []
  outputDir := (lastGiven 'o' given).getD []
  saveFrames := (lastGiven 'o' given).isSome
  verbose := (lastGiven 'v' given).isSome

variable {given : List Given} {cfg : Config}

/-- A flag is set where its option has been given. -/
theorem flag_eq_isSome (o : Option (List Char)) :
    (o.map fun _ => true).getD false = o.isSome := by
  cases o <;> rfl

theorem last_given {α : Type} (get : Config → α) (opt : Char) (f : List Char → α)
    (hget : ∀ s s' c x, parseOpt s (c, x) = .ok s' → get s' = if c = opt then f x else get s)
    (h : given.foldlM parseOpt defaultConfig = .ok cfg) :
    get cfg = ((lastGiven opt given).map f).getD (get defaultConfig) :=
  foldlM_last hget h

theorem loop_eq (h : given.foldlM parseOpt defaultConfig = .ok cfg) : cfg = configured given := by
  have hport := last_given Config.port 'p' portOf (fun _ _ _ _ hs => (parseOpt_writes hs).port) h
  have hcert := last_given Config.certFile 'c' id
    (fun _ _ _ _ hs => (parseOpt_writes hs).certFile) h
  have hkey := last_given Config.keyFile 'k' id (fun _ _ _ _ hs => (parseOpt_writes hs).keyFile) h
  have hdir := last_given Config.outputDir 'o' id
    (fun _ _ _ _ hs => (parseOpt_writes hs).outputDir) h
  have hsave := last_given Config.saveFrames 'o' (fun _ => true)
    (fun _ _ _ _ hs => (parseOpt_writes hs).saveFrames) h
  have hverbose := last_given Config.verbose 'v' (fun _ => true)
    (fun _ _ _ _ hs => (parseOpt_writes hs).verbose) h
  rw [Option.map_id_fun, id] at hcert hkey hdir
  have hsave := hsave.trans (flag_eq_isSome _)
  have hverbose := hverbose.trans (flag_eq_isSome _)
  obtain ⟨port, certFile, keyFile, outputDir, saveFrames, verbose⟩ := cfg
  simp only [configured, Config.mk.injEq]
  exact ⟨hport, hcert, hkey, hdir, hsave, hverbose⟩

/-! ## The outcome -/

/-- A certificate and a key are given. -/
def Complete (cfg : Config) : Prop := cfg.certFile ≠ [] ∧ cfg.keyFile ≠ []

/-- Every option of a list goes through. -/
def Fine (given : List Given) : Prop := ∀ g ∈ given, verdict g = none

/-- What `parseArgs` makes of the options given. -/
structure Outcome (given : List Given) (r : Except Stop Config) : Prop where
  accepted : ∀ cfg, r = .ok cfg ↔ Fine given ∧ Complete cfg ∧ cfg = configured given
  required : r = .error .required ↔ Fine given ∧ ¬ Complete (configured given)
  /-- The first option that is not fine is unknown or asks for help. -/
  usage : r = .error .usage ↔ ∃ before opt arg after, given = before ++ (opt, arg) :: after ∧
    Fine before ∧ opt ∉ ['p', 'c', 'k', 'o', 'v']
  /-- It is a port `std::stoi` does not convert. -/
  uncaught : ∀ e, r = .error (.uncaught e) ↔ ∃ before arg after,
    given = before ++ ('p', arg) :: after ∧ Fine before ∧ stoi arg = .error e

theorem verdict_usage_iff (opt : Char) (arg : List Char) :
    verdict (opt, arg) = some .usage ↔ opt ∉ ['p', 'c', 'k', 'o', 'v'] := by
  unfold verdict
  split
  case h_6 hp hc hk ho hv =>
    refine iff_of_true rfl fun hmem => ?_
    simp only [List.mem_cons, List.not_mem_nil, or_false] at hmem
    rcases hmem with rfl | rfl | rfl | rfl | rfl
    · exact hp arg rfl
    · exact hc arg rfl
    · exact hk arg rfl
    · exact ho arg rfl
    · exact hv arg rfl
  · rename_i heq
    rw [(Prod.mk.inj heq).1]
    refine iff_of_false ?_ (by decide)
    split <;> exact nofun
  all_goals
    rename_i heq
    rw [(Prod.mk.inj heq).1]
    exact iff_of_false nofun (by decide)

theorem verdict_uncaught_iff (opt : Char) (arg : List Char) (e : StoiError) :
    verdict (opt, arg) = some (.uncaught e) ↔ opt = 'p' ∧ stoi arg = .error e := by
  unfold verdict
  split
  case h_1 =>
    rename_i heq
    obtain ⟨rfl, rfl⟩ := Prod.mk.inj heq
    cases hs : stoi arg with
    | ok v => simp
    | error e' => simp
  case h_6 hp _ _ _ _ =>
    refine iff_of_false nofun fun h => ?_
    rw [h.1] at hp
    exact hp arg rfl
  all_goals
    rename_i heq
    rw [(Prod.mk.inj heq).1]
    exact iff_of_false nofun fun h => absurd h.1 (by decide)

/-- No option asks for what is checked behind the loop. -/
theorem verdict_ne_required (g : Given) : verdict g ≠ some .required := by
  unfold verdict
  split
  · split <;> exact nofun
  all_goals exact nofun

/-- `parseArgs` is the loop and the check. -/
theorem parseArgs_cases (getopt : List (List Char) → List Given) (argv : List (List Char)) :
    (∃ e, (getopt argv).foldlM parseOpt defaultConfig = .error e ∧
      parseArgs getopt argv = .error e) ∨
    Fine (getopt argv) ∧ parseArgs getopt argv = validate (configured (getopt argv)) := by
  unfold parseArgs
  cases hloop : (getopt argv).foldlM parseOpt defaultConfig with
  | error e => exact .inl ⟨e, rfl, rfl⟩
  | ok cfg => exact .inr ⟨(foldlM_ok_iff parseOpt_ok_iff).mp ⟨cfg, hloop⟩, loop_eq hloop ▸ rfl⟩

/-- The loop has failed. -/
theorem outcome_of_error {e : Stop}
    (h : given.foldlM parseOpt defaultConfig = .error e) : Outcome given (.error e) := by
  have hbad : ¬ Fine given := by
    intro hfine
    obtain ⟨cfg, hok⟩ := (foldlM_ok_iff (s := defaultConfig) parseOpt_ok_iff).mpr hfine
    cases h.symm.trans hok
  have hsome : ∀ e', Except.error e = (Except.error e' : Except Stop Config) ↔
      ∃ before g after, given = before ++ g :: after ∧ Fine before ∧ verdict g = some e' := by
    intro e'
    rw [← h]
    exact foldlM_error_iff parseOpt_ok_iff parseOpt_error_iff
  refine ⟨fun cfg => iff_of_false nofun fun hc => hbad hc.1, ?_, ?_, fun e' => ?_⟩
  · refine iff_of_false (fun heq => ?_) fun hr => hbad hr.1
    obtain ⟨before, g, after, -, -, hg⟩ := (hsome _).mp heq
    exact verdict_ne_required g hg
  · rw [hsome]
    constructor
    · rintro ⟨before, ⟨opt, arg⟩, after, heq, hbefore, hg⟩
      exact ⟨before, opt, arg, after, heq, hbefore, (verdict_usage_iff opt arg).mp hg⟩
    · rintro ⟨before, opt, arg, after, heq, hbefore, hopt⟩
      exact ⟨before, (opt, arg), after, heq, hbefore, (verdict_usage_iff opt arg).mpr hopt⟩
  · rw [hsome]
    constructor
    · rintro ⟨before, ⟨opt, arg⟩, after, heq, hbefore, hg⟩
      obtain ⟨rfl, hs⟩ := (verdict_uncaught_iff opt arg e').mp hg
      exact ⟨before, arg, after, heq, hbefore, hs⟩
    · rintro ⟨before, arg, after, heq, hbefore, hs⟩
      exact ⟨before, ('p', arg), after, heq, hbefore,
        (verdict_uncaught_iff 'p' arg e').mpr ⟨rfl, hs⟩⟩

/-- The loop has gone through. -/
theorem outcome_of_fine (h : Fine given) : Outcome given (validate (configured given)) := by
  -- no option of the list is one the loop stops at
  have hnone : ∀ {before : List Given} {g : Given} {after : List Given} {e : Stop},
      given = before ++ g :: after → verdict g ≠ some e := by
    intro before g after e heq hg
    have hmem : g ∈ given := heq ▸ List.mem_append_right before List.mem_cons_self
    cases (h g hmem).symm.trans hg
  have hcomplete : Complete (configured given) ↔
      ¬ ((configured given).certFile = [] ∨ (configured given).keyFile = []) := not_or.symm
  unfold validate
  refine ⟨fun cfg => ?_, ?_, ?_, fun e => ?_⟩
  · constructor
    · intro heq
      split_ifs at heq with hempty
      cases heq
      exact ⟨h, hcomplete.mpr hempty, rfl⟩
    · rintro ⟨-, hc, rfl⟩
      rw [if_neg (hcomplete.mp hc)]
  · rw [hcomplete, not_not]
    constructor
    · intro heq
      split_ifs at heq with hempty
      exact ⟨h, hempty⟩
    · rintro ⟨-, hempty⟩
      rw [if_pos hempty]
  · refine iff_of_false (fun heq => by split_ifs at heq; cases heq) ?_
    rintro ⟨before, opt, arg, after, heq, -, hopt⟩
    exact hnone heq ((verdict_usage_iff opt arg).mpr hopt)
  · refine iff_of_false (fun heq => by split_ifs at heq; cases heq) ?_
    rintro ⟨before, arg, after, heq, -, hs⟩
    exact hnone heq ((verdict_uncaught_iff 'p' arg e).mpr ⟨rfl, hs⟩)

theorem outcome_of_parseArgs (getopt : List (List Char) → List Given) (argv : List (List Char)) :
    Outcome (getopt argv) (parseArgs getopt argv) := by
  rcases parseArgs_cases getopt argv with ⟨e, hloop, heq⟩ | ⟨hfine, heq⟩
  · rw [heq]
    exact outcome_of_error hloop
  · rw [heq]
    exact outcome_of_fine hfine

/-- **What the server makes of its command line**, for every `getopt_long` and every line. -/
theorem parse_outcome (getopt : List (List Char) → List Given) (argv : List (List Char)) :
    Outcome (getopt argv) (parseArgs getopt argv) :=
  outcome_of_parseArgs getopt argv

/-- A port that is no number ends the program, though help is asked for behind it. -/
example : parseArgs serverOptions.getoptLong ["-p".toList, "x".toList, "-h".toList] =
    .error (.uncaught .invalidArgument) := by decide

/-! ## The program started -/

/-- What `handleClient` reads of the configuration. -/
def Config.serving (cfg : Config) : Server.Config where
  outputDir := cfg.outputDir.map fun c => UInt8.ofNat c.toNat
  saveFrames := cfg.saveFrames

/-- `main` up to the accept loop. -/
def start (getopt : List (List Char) → List Given) (argv : List (List Char)) (env : BootEnv)
    (files : Files) : Except Stop Boot := do
  let cfg ← parseArgs getopt argv
  return boot cfg.serving env files

theorem start_cases {getopt : List (List Char) → List Given} {argv : List (List Char)}
    {env : BootEnv} {files : Files} {p : Process}
    (h : start getopt argv env files = .ok (.starts p)) : Fine (getopt argv) ∧
      boot (configured (getopt argv)).serving env files = .starts p := by
  unfold start at h
  cases hparse : parseArgs getopt argv with
  | error e => rw [hparse] at h; cases h
  | ok cfg =>
    rw [hparse] at h
    obtain ⟨hfine, -, rfl⟩ := ((outcome_of_parseArgs getopt argv).accepted cfg).mp hparse
    exact ⟨hfine, Except.ok.inj h⟩

/-- **Without `--output` no file is touched**, whatever comes over the connections. -/
theorem untouched_without_output {getopt : List (List Char) → List Given} {argv : List (List Char)}
    {env : BootEnv} {files : Files} {o : ByteOrder} {p q : Process}
    (hstart : start getopt argv env files = .ok (.starts p))
    (hnone : lastGiven 'o' (getopt argv) = none)
    (hr : Reach (Process.step o (configured (getopt argv)).serving) (fun _ _ => True) p q) :
    q.now.files = files ∧ q.now.saved = [] ∧ q.now.framesSaved = 0 := by
  obtain ⟨-, hboot⟩ := start_cases hstart
  obtain ⟨uss, new, hserves⟩ := Process.serves_of_reachable ⟨env, p, hboot, hr⟩
  have hsave : (configured (getopt argv)).serving.saveFrames = false := by
    simp only [Config.serving, configured, hnone]
    rfl
  have harch := hserves.archives
  have hnew : new = [] := by
    have hnames := harch.names
    rw [if_neg (by rw [hsave]; exact Bool.false_ne_true)] at hnames
    exact List.map_eq_nil_iff.mp hnames
  subst hnew
  exact ⟨harch.files, harch.saves, harch.framesSaved⟩

end Args

end CameraStreamer.Server
