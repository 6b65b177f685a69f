import DrMingw.CNumbers
import DrMingw.CommandLine
import DrMingw.DebugEvents
import DrMingw.OptionReading

/-! `wmain` of `catchsegv` up to the process it creates: its options, and which of its
arguments become the command line of the child. -/
namespace DrMingw
namespace CatchSegv

open GetOpt OptionScan CommandLine DebugLoop

/-- The variables the options set. -/
structure Options where
  debugOptions : DebugOptions := {}
  debug_flag : Bool := false
  debugHeap : Bool := false
  g_ModalDialogIgnore : Bool := false
  g_TimeOut : DWORD := 0

/-- Why the loop over the options is left before they end. -/
inductive Stop
  | usage
  /-- An option it does not know, or that lacks its argument. -/
  | leave (o : Options)

/-- What becomes of a run: the process is created, or it returns an exit code. -/
inductive Outcome
  | create (o : Options) (lpCommandLine : List WCHAR)
  | usage (exitCode : ℕ)
  | noCommandLine (exitCode : ℕ)

def getoptCall (posixlyCorrect : Bool) : Call where
  mode := .standard
  optstring := ⟨wide "?1dhHmt:zZ:vq",by decide⟩
  posixlyCorrect := posixlyCorrect

/-- A character as the value of an `int`. -/
def int (c : Char) : ℤ := c.toNat

/-- The `switch` over what `getoptW` has returned. -/
def switch (o : Options) (opt optopt : ℤ) (optarg : Option (List WCHAR)) : Except Stop Options :=
  if opt = int 'h' then .error .usage
  else if opt = int 'v' then .ok { o with debugOptions.verbose_flag := true }
  else if opt = int 'd' then .ok { o with debug_flag := true }
  else if opt = int '1' then .ok { o with debugOptions.first_chance := true }
  else if opt = int 'm' then .ok { o with g_ModalDialogIgnore := true }
  else if opt = int 't' then .ok { o with g_TimeOut := CNumbers.wcstoul (optarg.getD []) 0 }
  else if opt = int 'H' then .ok { o with debugHeap := true }
  else if opt = int 'z' then .ok { o with debugOptions.minidump := true }
  else if opt = int 'Z' then
    .ok { o with debugOptions.minidump := true, debugOptions.minidumpDir := optarg }
  else if opt = int 'q' then .ok { o with debugOptions.no_debug_string := true }
  else if opt = int '?' then
    if optopt = int '?' then .error .usage else .error (.leave o)
  else .error (.leave o)

def EXIT_FAILURE : ℕ := 1

/-- The rest of the arguments becomes the command line. -/
def create (o : Options) (argv : List (List WCHAR)) : Outcome :=
  if commandLine argv = [] then .noCommandLine EXIT_FAILURE else .create o (commandLine argv)

/-- `fuel` bounds the calls of `getoptW`. -/
def wmain (posixlyCorrect : Bool) (argv : List (List WCHAR)) (fuel : ℕ) : Option Outcome :=
  let r := optionLoop (getoptCall posixlyCorrect)
    (fun o opt s => switch o opt s.optopt s.optarg) fuel {} { argv := argv }
  match r with
  | none => none
  | some (.error .usage,_) => some (.usage 0)
  | some (.error (.leave o),s) => some (create o (s.argv.drop s.optind))
  | some (.ok o,s) => some (create o (s.argv.drop s.optind))

/-- The reading of the arguments behind the program's name. -/
def reading (posixlyCorrect : Bool) (args : List (List WCHAR)) : Reading WCHAR LongOption :=
  (getoptCall posixlyCorrect).grammar.scan ⟨[],args⟩

/-- What an event does to the options. -/
def react (o : Options) : Event WCHAR LongOption → Except Stop Options
  | .option (.letter c) value => switch o c.toNat c.toNat value
  | _ => .error (.leave o)

theorem letterArity_question (posixlyCorrect : Bool) :
    (getoptCall posixlyCorrect).letterArity 0x3F = some .none := by
  rfl

/-- Where `getoptW` does not return an option, the loop is left. -/
theorem switch_unknown (o : Options) {optopt : ℤ} (h : optopt ≠ int '?')
    (optarg : Option (List WCHAR)) : switch o unknown optopt optarg = .error (.leave o) := by
  rw [switch,if_neg (by decide),if_neg (by decide),if_neg (by decide),if_neg (by decide),
    if_neg (by decide),if_neg (by decide),if_neg (by decide),if_neg (by decide),
    if_neg (by decide),if_neg (by decide),if_pos (by decide),if_neg h]

theorem switch_follows (posixlyCorrect : Bool) :
    Follows (getoptCall posixlyCorrect) (fun o opt s => switch o opt s.optopt s.optarg) react Eq := by
  refine follows_of_eq fun o e r s hof hshows => ?_
  have hlong : ∀ opt : LongOption, ¬(getoptCall posixlyCorrect).grammar.IsLong opt :=
    fun opt h => by simpa [getoptCall] using isLong_mem h
  have hquestion {c : WCHAR} {k : Option Arity} (hk : k ≠ some .none)
      (hc : (getoptCall posixlyCorrect).letterArity c = k) : (c.toNat : ℤ) ≠ int '?' := by
    intro he
    have hvalue : (c.toNat : ℤ) = 63 := he
    have hc' : c = 0x3F := UInt16.toNat_inj.mp (show c.toNat = 63 by omega)
    rw [hc',letterArity_question] at hc
    exact hk hc.symm
  cases hshows with
  | letter ho ha => simp only [react,ho,ha]
  | long => exact (hlong _ hof.1).elim
  | unknown ho => exact switch_unknown o (ho ▸ hquestion (by simp) hof) _
  | missingLetter ho => exact switch_unknown o (ho ▸ hquestion (by simp) hof) _
  | missingLong => exact (hlong _ hof.1).elim
  | excess => exact (hlong _ hof.1).elim
  | stray ho => exact switch_unknown o (ho ▸ by decide) _
  | operand => rfl

/-- Where every event is an option the program knows, it goes on with the operands. -/
theorem wmain_reads (posixlyCorrect : Bool) (program : List WCHAR) (args : List (List WCHAR))
    {o : Options} (h : (reading posixlyCorrect args).events.foldlM react {} = .ok o) (fuel : ℕ) :
    wmain posixlyCorrect (program::args) ((reading posixlyCorrect args).events.length + 1 + fuel) =
      some (create o (reading posixlyCorrect args).operands) := by
  obtain ⟨o',s,hloop,rfl,hargv,hoptind⟩ := optionLoop_reads (switch_follows posixlyCorrect)
    (rfl : ({} : Options) = {}) (at_start (getoptCall posixlyCorrect) program args) h fuel
  have hloop' : optionLoop (getoptCall posixlyCorrect)
      (fun o opt s => switch o opt s.optopt s.optarg)
      ((reading posixlyCorrect args).events.length + 1 + fuel) {} { argv := program::args } =
      some (.ok o',s) := hloop
  have hrest : s.argv.drop s.optind = (reading posixlyCorrect args).operands := by
    rw [hargv,hoptind]
    exact List.drop_left
  simp only [wmain,hloop',hrest]

theorem react_ok {o o' : Options} {events : List (Event WCHAR LongOption)}
    (h : events.foldlM react o = .ok o') : ∀ e ∈ events, ¬e.Misses := by
  induction events generalizing o with
  | nil => simp
  | cons e events ih =>
    rw [List.foldlM_cons] at h
    cases he : react o e with
    | error out => simp [he,bind,Except.bind] at h
    | ok o₁ =>
      rw [he] at h
      refine List.forall_mem_cons.mpr ⟨?_,ih h⟩
      rintro hm
      cases e <;> simp [react] at he hm

theorem reading_marker (posixlyCorrect : Bool) {opts : List (List WCHAR)}
    (hs : (reading posixlyCorrect opts).stopped = false)
    (hm : ∀ e ∈ (reading posixlyCorrect opts).events, ¬e.Misses) (command : List (List WCHAR)) :
    (reading posixlyCorrect (opts ++ wide "--" :: command)).events =
        (reading posixlyCorrect opts).events ∧
      (reading posixlyCorrect (opts ++ wide "--" :: command)).operands =
        (reading posixlyCorrect opts).operands ++ command := by
  have happend := Grammar.scan_append (G := (getoptCall posixlyCorrect).grammar) ⟨[],opts⟩ hs hm
    (wide "--" :: command)
  have hstop := Grammar.scan_stop (G := (getoptCall posixlyCorrect).grammar)
    (show (getoptCall posixlyCorrect).grammar.word (wide "--") = .stop from rfl) command
  rw [hstop] at happend
  constructor
  · rw [reading,happend]
    simp [Reading.append,reading]
  · rw [reading,happend]
    simp [Reading.append,reading]

/-- Behind `--` the command reaches the child as it was given, option-like arguments
included, and the options are those in front of `--`. -/
theorem command_reaches_child (posixlyCorrect : Bool) (program : List WCHAR)
    {opts command : List (List WCHAR)} {o : Options}
    (hs : (reading posixlyCorrect opts).stopped = false)
    (ho : (reading posixlyCorrect opts).events.foldlM react {} = .ok o)
    (hcommand : command ≠ [])
    (hsurvive : ∀ arg ∈ (reading posixlyCorrect opts).operands ++ command, Survives arg)
    (fuel : ℕ) :
    ∃ line, wmain posixlyCorrect (program :: (opts ++ wide "--" :: command))
        ((reading posixlyCorrect opts).events.length + 1 + fuel) = some (.create o line) ∧
      ArgumentSplit.split msvcrt line = (reading posixlyCorrect opts).operands ++ command := by
  obtain ⟨hevents,hoperands⟩ := reading_marker posixlyCorrect hs (react_ok ho) command
  have hmain := wmain_reads posixlyCorrect program (opts ++ wide "--" :: command) (o := o)
    (by rw [hevents]; exact ho) fuel
  have hsplit := split_commandLine_of_survives hsurvive
  have hne : commandLine ((reading posixlyCorrect opts).operands ++ command) ≠ [] := by
    intro he
    rw [he] at hsplit
    have hnil := List.append_eq_nil_iff.mp hsplit.symm
    exact hcommand hnil.2
  rw [hevents,hoperands,create,if_neg hne] at hmain
  exact ⟨_,hmain,hsplit⟩

/-- Options in front of `--`, with an operand among them. -/
def sampleOptions : List (List WCHAR) := [wide "-vt",wide "5",wide "app"]

theorem reading_sample : reading false sampleOptions =
    ⟨[.option (.letter 0x76) none,.option (.letter 0x74) (some (wide "5"))],
      [wide "-vt",wide "5"],[wide "app"],false⟩ := by
  have h₁ : (getoptCall false).grammar.read ⟨[],sampleOptions⟩ =
      .step [] ⟨.option (.letter 0x76) none,[wide "-vt"],⟨wide "t",[wide "5",wide "app"]⟩⟩ := rfl
  have h₂ : (getoptCall false).grammar.read ⟨wide "t",[wide "5",wide "app"]⟩ =
      .step [] ⟨.option (.letter 0x74) (some (wide "5")),[wide "5"],⟨[],[wide "app"]⟩⟩ := rfl
  have h₃ : (getoptCall false).grammar.read ⟨[],[wide "app"]⟩ =
      .done [wide "app"] [] [] false := rfl
  rw [reading,Grammar.scan_step h₁,Grammar.scan_step h₂,Grammar.scan_done h₃]
  rfl

theorem command_reaches_child_sample :
    ∃ line, wmain false (wide "catchsegv" :: (sampleOptions ++ wide "--" :: [wide "-v",wide "a b"])) 3 =
        some (.create { debugOptions := { verbose_flag := true }, g_TimeOut := 5 } line) ∧
      ArgumentSplit.split msvcrt line = [wide "app",wide "-v",wide "a b"] := by
  have hs : (reading false sampleOptions).stopped = false := by rw [reading_sample]
  have ho : (reading false sampleOptions).events.foldlM react {} =
      .ok { debugOptions := { verbose_flag := true }, g_TimeOut := 5 } := by
    rw [reading_sample]
    rfl
  have hcommand : [wide "-v",wide "a b"] ≠ [] := by decide
  have h := command_reaches_child false (wide "catchsegv") hs ho hcommand
    (by rw [reading_sample]; decide) 0
  rwa [reading_sample] at h

/-- Behind a hyphen stand letters, one option each, except in `--`. -/
theorem word_cluster {posixlyCorrect : Bool} {d : WCHAR} {ds : List WCHAR}
    (h : switchar::d::ds ≠ wide "--") :
    (getoptCall posixlyCorrect).grammar.word (switchar::d::ds) = .cluster d ds := by
  have hword : (getoptCall posixlyCorrect).word (switchar::d::ds) = .cluster d ds := by
    simp only [Call.word,if_true]
    by_cases hd : d = switchar
    · have hne : ds ≠ [] := by
        rintro rfl
        exact h (by rw [hd]; rfl)
      simp [hd,hne,getoptCall]
    · simp [hd,getoptCall]
  exact hword

/-- At an unknown letter the scanner stands at its argument while there are letters left. -/
theorem drop_optind_unknown {g : Call} {U N command : List (List WCHAR)} {arg letters : List WCHAR}
    {s : State} (hat : g.At (U ++ [arg]) N ⟨letters,command⟩ s)
    (hi : s.optind = if s.nextchar ≠ [] then s.argind else s.argind + 1) :
    s.argv.drop s.optind = if letters = [] then command else arg::command := by
  obtain ⟨P,O,hO,hstands⟩ := hat
  obtain ⟨O,x,rfl⟩ : ∃ O' x, O = O' ++ [x] :=
    ⟨O.dropLast,O.getLast hstands.taken,(List.dropLast_append_getLast _).symm⟩
  rw [← List.append_assoc] at hO
  obtain rfl : arg = x := (List.append_singleton_inj.mp hO).2
  have hargind : s.argind = (P ++ N ++ O).length := by
    have h := hstands.argind
    simp only [List.length_append,List.length_singleton] at h ⊢
    omega
  have hargv : s.argv = (P ++ N ++ O) ++ arg::command := by simpa using hstands.argv
  have hnext : s.nextchar = letters := hstands.nextchar
  rw [hargv,hi,hnext,hargind]
  by_cases hl : letters = []
  · rw [if_neg (not_not.mpr hl),if_pos hl,List.drop_append]
    simp
  · rw [if_pos hl,if_neg hl]
    exact List.drop_left

/-- A letter that is no option ends the options on the spot, and the operands in front of its
argument are lost. The command is what stands behind the argument or, where more letters
stand behind it in the argument, the argument and what stands behind that. -/
theorem unknown_letter_cuts (posixlyCorrect : Bool) (program : List WCHAR)
    {opts : List (List WCHAR)} {o o' : Options}
    (hs : (reading posixlyCorrect opts).stopped = false)
    (ho : (reading posixlyCorrect opts).events.foldlM react {} = .ok o) {flags : List WCHAR}
    (hflags : ∀ f ∈ flags, (getoptCall posixlyCorrect).letterArity f = some .none)
    (ho' : (flags.map fun f => Event.option (.letter f) none).foldlM react o = .ok o') {c : WCHAR}
    (hc : (getoptCall posixlyCorrect).letterArity c = none) {letters : List WCHAR}
    (hmarker : switchar :: (flags ++ c::letters) ≠ wide "--") (command : List (List WCHAR))
    (fuel : ℕ) :
    wmain posixlyCorrect (program :: (opts ++ (switchar :: (flags ++ c::letters)) :: command))
        ((reading posixlyCorrect opts).events.length + flags.length + 1 + fuel) =
      some (create o' (if letters = [] then command
        else (switchar :: (flags ++ c::letters)) :: command)) := by
  let G := (getoptCall posixlyCorrect).grammar
  let arg := switchar :: (flags ++ c::letters)
  let known : List (Event WCHAR LongOption) := flags.map fun f => .option (.letter f) none
  obtain ⟨operands,used,hoperands,hpath⟩ := Grammar.path_append (G := G) ⟨[],opts⟩ hs (react_ok ho)
    (arg :: command)
  have hcluster : G.Path ⟨[],operands ++ arg::command⟩ (known ++ [.unknown c]) [arg]
      ⟨letters,command⟩ := by
    have hletters : G.Path ⟨flags ++ c::letters,command⟩ (known ++ [.unknown c]) []
        ⟨letters,command⟩ := Grammar.path_unknown hflags hc rfl letters command
    obtain ⟨d,ds,hds⟩ := List.exists_cons_of_ne_nil (show flags ++ c::letters ≠ [] by simp)
    rw [hds] at hletters hmarker
    simp only [arg,hds]
    exact hletters.of_cluster (word_cluster hmarker) hoperands (by simp)
  have hseen : ((reading posixlyCorrect opts).events ++ known).foldlM react {} = .ok o' := by
    rw [List.foldlM_append,ho]
    exact ho'
  have hwhole := hpath.trans hcluster
  rw [← List.append_assoc] at hwhole
  obtain ⟨r,s,N,hloop,hshows,hat⟩ := optionLoop_stops (switch_follows posixlyCorrect)
    (rfl : ({} : Options) = {}) (at_start (getoptCall posixlyCorrect) program _)
    hwhole hseen (rfl : react o' (.unknown c) = .error (.leave o')) fuel
  rw [← List.append_assoc] at hat
  have hrest := drop_optind_unknown hat (by cases hshows with | unknown _ hi => exact hi)
  have hlength : ((reading posixlyCorrect opts).events ++ known).length + 1 + fuel =
      (reading posixlyCorrect opts).events.length + flags.length + 1 + fuel := by simp [known]
  have hloop' : optionLoop (getoptCall posixlyCorrect)
      (fun o opt s => switch o opt s.optopt s.optarg)
      ((reading posixlyCorrect opts).events.length + flags.length + 1 + fuel) {}
      { argv := program :: (opts ++ arg::command) } = some (.error (.leave o'),s) :=
    hlength ▸ hloop
  simp only [wmain,arg] at hloop' hrest ⊢
  simp only [hloop',hrest]

/-- In `-dxv` the letter `x` is unknown: what is run is `-dxv arg`. -/
theorem unknown_letter_cuts_sample :
    wmain false (wide "catchsegv" :: (sampleOptions ++ wide "-dxv" :: [wide "arg"])) 4 =
      some (create { debugOptions := { verbose_flag := true }, g_TimeOut := 5, debug_flag := true }
        [wide "-dxv",wide "arg"]) := by
  have hs : (reading false sampleOptions).stopped = false := by rw [reading_sample]
  have ho : (reading false sampleOptions).events.foldlM react {} =
      .ok { debugOptions := { verbose_flag := true }, g_TimeOut := 5 } := by
    rw [reading_sample]
    rfl
  have hflags : ∀ f ∈ [(0x64 : WCHAR)], (getoptCall false).letterArity f = some .none := by
    intro f hf
    obtain rfl := List.mem_singleton.mp hf
    rfl
  have hc : (getoptCall false).letterArity 0x78 = none := rfl
  have hmarker : switchar :: ([0x64] ++ 0x78::[0x76]) ≠ wide "--" := by decide
  have h := unknown_letter_cuts false (wide "catchsegv") hs ho hflags rfl hc hmarker [wide "arg"] 0
  rwa [reading_sample] at h

end CatchSegv
end DrMingw
