import DrMingw.CNumbers
import DrMingw.CommandLine
import DrMingw.DebugEvents
import DrMingw.DevicePaths
import DrMingw.OptionReading

/-! `wmain` of `drmingw`: its options, its registration as the just-in-time debugger, and
what it makes of the command line the system starts it with. -/
namespace DrMingw
namespace JitDebugger

open GetOpt OptionScan CommandLine DebugLoop

/-- The variables the options set. -/
structure Options where
  debugOptions : DebugOptions := { first_chance := true }
  debug_flag : Bool := false
  process_id_given : Bool := false
  install_given : Bool := false
  uninstall_given : Bool := false
  dwProcessId : DWORD := 0

/-- A return from inside the loop, behind the message box it shows. -/
inductive Exit
  | help
  | version
  | message (lpText : List WCHAR) (exitCode : ℕ)

/-- The running processes, as the snapshot of them tells; `none` without a snapshot. -/
abbrev Snapshot := Option (List (List WCHAR × DWORD))

/-- `_wcsicmp` finds no difference. -/
def wcsicmpEqual (s t : List WCHAR) : Bool :=
  s.map DevicePaths.towlower = t.map DevicePaths.towlower

def getProcessIdByName (snapshot : Snapshot) (szProcessName : List WCHAR) : DWORD :=
  match snapshot with
  | none => 0
  | some processes =>
    match processes.find? fun pe32 => wcsicmpEqual szProcessName pe32.1 with
    | none => 0
    | some pe32 => pe32.2

/-- `(HANDLE)(INT_PTR)` of a `long`: a negative one is extended to the width of a pointer. -/
def toHandle (b : Build) (v : ℤ) : HANDLE := (v % 2^(if b.win64 then 64 else 32)).toNat

def int (c : Char) : ℤ := c.toNat

/-- `%c` puts a character between the quotes, which may be the NUL that ends the text. -/
def charMessage (text : String) (c : ℤ) : List WCHAR :=
  cstr (wide text ++ [UInt16.ofNat (c % 2^16).toNat] ++ wide "'")

/-- A process by its number or by its name. -/
def nameProcess (snapshot : Snapshot) (o : Options) (optarg : List WCHAR) : Options :=
  if 0x30 ≤ optarg.headD 0 ∧ optarg.headD 0 ≤ 0x39 then
    { o with process_id_given := true, dwProcessId := CNumbers.wcstoul optarg 0 }
  else
    { o with
      process_id_given := true, debugOptions.breakpoint_flag := true,
      dwProcessId := getProcessIdByName snapshot optarg }

/-- `case 'p'`. -/
def onProcess (snapshot : Snapshot) (o : Options) (optarg : List WCHAR) : Except Exit Options :=
  if o.process_id_given then .error (.message (wide "`--process-id' (`-p') option redeclared") 1)
  else if (nameProcess snapshot o optarg).dwProcessId = 0 then
    .error (.message (wide "Invalid process") 1)
  else .ok (nameProcess snapshot o optarg)

/-- The `switch` over what `getoptW_long_only` has returned. -/
def switch (b : Build) (snapshot : Snapshot) (o : Options) (c optopt : ℤ)
    (optarg : Option (List WCHAR)) : Except Exit Options :=
  if c = int '?' then
    if optopt ≠ int '?' then .error (.message (charMessage "Invalid option '" optopt) 1)
    else .error .help
  else if c = int 'h' then .error .help
  else if c = int 'V' then .error .version
  else if c = int 'i' then
    if o.uninstall_given then
      .error (.message (wide "conficting options `--uninstall' (`-u') and `--install' (`-i')") 0)
    else .ok { o with install_given := true }
  else if c = int 'u' then
    if o.install_given then
      .error (.message (wide "conficting options `--install' (`-i') and `--uninstall' (`-u')") 0)
    else .ok { o with uninstall_given := true }
  else if c = int 'p' then onProcess snapshot o (optarg.getD [])
  else if c = int 'e' then
    if o.debugOptions.hEvent ≠ NULL then
      .error (.message (wide "`--event' (`-e') option redeclared") 1)
    else
      .ok { o with debugOptions.hEvent := toHandle b (CNumbers.wcstol (optarg.getD []) 0) }
  else if c = int 't' then
    .ok { o with debugOptions.dwThreadId := CNumbers.wcstoul (optarg.getD []) 0 }
  else if c = int 'b' then .ok { o with debugOptions.breakpoint_flag := true }
  else if c = int 'v' then .ok { o with debugOptions.verbose_flag := true }
  else if c = int 'd' then .ok { o with debug_flag := true }
  else .error (.message (charMessage "Unexpected option '-" c) 1)

def long_options : List LongOption :=
  [⟨wide "help",.no_argument,int 'h',by decide,by decide⟩,
    ⟨wide "version",.no_argument,int 'V',by decide,by decide⟩,
    ⟨wide "install",.no_argument,int 'i',by decide,by decide⟩,
    ⟨wide "uninstall",.no_argument,int 'u',by decide,by decide⟩,
    ⟨wide "process-id",.required_argument,int 'p',by decide,by decide⟩,
    ⟨wide "event",.required_argument,int 'e',by decide,by decide⟩,
    ⟨wide "tid",.required_argument,int 't',by decide,by decide⟩,
    ⟨wide "breakpoint",.no_argument,int 'b',by decide,by decide⟩,
    ⟨wide "verbose",.no_argument,int 'v',by decide,by decide⟩,
    ⟨wide "debug",.no_argument,int 'd',by decide,by decide⟩]

def getoptCall (posixlyCorrect : Bool) : Call where
  mode := .long_only
  optstring := ⟨wide "?hViup:e:t:vbd",by decide⟩
  longopts := long_options
  posixlyCorrect := posixlyCorrect

/-- What the program goes on to do once its options have been read. -/
inductive Task
  | exit (e : Exit)
  | install (o : Options)
  | uninstall (o : Options)
  | attach (o : Options)
  | help

/-- The decision behind the loop. -/
def task (o : Options) : Task :=
  if o.install_given then .install o
  else if o.uninstall_given then .uninstall o
  else if o.process_id_given then .attach o
  else .help

structure Environment where
  build : Build := {}
  posixlyCorrect : Bool := false
  snapshot : Snapshot := none

/-- `wmain` up to the task it goes on with. -/
def wmain (env : Environment) (argv : List (List WCHAR)) (fuel : ℕ) : Option Task :=
  let r := optionLoop (getoptCall env.posixlyCorrect)
    (fun o c s => switch env.build env.snapshot o c s.optopt s.optarg) fuel {} { argv := argv }
  match r with
  | none => none
  | some (.error e,_) => some (.exit e)
  | some (.ok o,_) => some (task o)

def reading (posixlyCorrect : Bool) (args : List (List WCHAR)) : Reading WCHAR LongOption :=
  (getoptCall posixlyCorrect).grammar.scan ⟨[],args⟩

/-- What an event does to the options. -/
def react (env : Environment) (o : Options) : Event WCHAR LongOption → Except Exit Options
  | .option (.letter c) value => switch env.build env.snapshot o c.toNat c.toNat value
  | .option (.long opt) value => switch env.build env.snapshot o opt.val 0 value
  | .missing (.letter c) => switch env.build env.snapshot o unknown c.toNat none
  | .missing (.long opt) => switch env.build env.snapshot o unknown opt.val none
  | .excess opt => switch env.build env.snapshot o unknown opt.val none
  | .unknown _ => switch env.build env.snapshot o unknown 0 none
  | .stray _ => switch env.build env.snapshot o unknown 0 none
  | .operand _ => switch env.build env.snapshot o ordered 0 none

theorem switch_question (b : Build) (snapshot : Snapshot) (o : Options) (optopt : ℤ)
    (optarg optarg' : Option (List WCHAR)) :
    switch b snapshot o unknown optopt optarg = switch b snapshot o unknown optopt optarg' := by
  have h : unknown = int '?' := by decide
  rw [switch,switch,if_pos h,if_pos h]

theorem switch_not_question (b : Build) (snapshot : Snapshot) (o : Options) {c : ℤ}
    (hc : c ≠ int '?') (optopt optopt' : ℤ) (optarg : Option (List WCHAR)) :
    switch b snapshot o c optopt optarg = switch b snapshot o c optopt' optarg := by
  rw [switch,switch,if_neg hc,if_neg hc]

theorem switch_follows (env : Environment) :
    Follows (getoptCall env.posixlyCorrect)
      (fun o c s => switch env.build env.snapshot o c s.optopt s.optarg) (react env) Eq := by
  refine follows_of_eq fun o e r s hof hshows => ?_
  cases hshows with
  | letter ho ha => simp only [react,ho,ha]
  | @long opt value s ha =>
    have hmem : opt ∈ long_options := isLong_mem hof.1
    have hall : ∀ opt ∈ long_options, opt.val ≠ int '?' := by decide
    simp only [react,ha]
    exact switch_not_question _ _ o (hall opt hmem) _ _ _
  | unknown ho =>
    have hmode : (getoptCall env.posixlyCorrect).mode = .long_only := rfl
    rw [if_pos hmode] at ho
    simp only [react,ho]
    exact switch_question _ _ o 0 _ _
  | missingLetter ho =>
    have hmissing : getoptW_missing_arg (getoptCall env.posixlyCorrect).optstring.chars =
      unknown := rfl
    simp only [react,ho,hmissing]
    exact switch_question _ _ o _ _ _
  | missingLong ho =>
    have hmissing : getoptW_missing_arg (getoptCall env.posixlyCorrect).optstring.chars =
      unknown := rfl
    simp only [react,ho,hmissing]
    exact switch_question _ _ o _ _ _
  | excess ho =>
    simp only [react,ho]
    exact switch_question _ _ o _ _ _
  | stray ho =>
    simp only [react,ho]
    exact switch_question _ _ o _ _ _
  | operand => rfl

/-- The task is what the events make of the options, in their order: every command line
leads to one, and the first event with a message of its own decides. -/
theorem wmain_eq (env : Environment) (program : List WCHAR) (args : List (List WCHAR)) (fuel : ℕ) :
    wmain env (program::args) ((reading env.posixlyCorrect args).events.length + 1 + fuel) =
      some (match (reading env.posixlyCorrect args).events.foldlM (react env) {} with
        | .error e => .exit e
        | .ok o => task o) := by
  obtain ⟨s,hloop⟩ := optionLoop_eq (switch_follows env)
    (at_start (getoptCall env.posixlyCorrect) program args) {} fuel
  have hloop' : optionLoop (getoptCall env.posixlyCorrect)
      (fun o c s => switch env.build env.snapshot o c s.optopt s.optarg)
      ((reading env.posixlyCorrect args).events.length + 1 + fuel) {} { argv := program::args } =
      some ((reading env.posixlyCorrect args).events.foldlM (react env) {},s) := hloop
  simp only [wmain,hloop']
  cases (reading env.posixlyCorrect args).events.foldlM (react env) {} <;> rfl

/-- The event is an option that makes the program do `c`. -/
def isOption (c : Char) : Event WCHAR LongOption → Bool
  | .option (.letter l) _ => (l.toNat : ℤ) = int c
  | .option (.long opt) _ => opt.val = int c
  | _ => false

/-- What the loop keeps true: a process is there once it was named, and at most one of
installing and uninstalling is asked for. The counts are of the events so far. -/
structure Sound (process install uninstall : ℕ) (o : Options) : Prop where
  process_given : process = if o.process_id_given then 1 else 0
  process_id : o.process_id_given = true → o.dwProcessId ≠ 0
  install_given : 0 < install ↔ o.install_given = true
  uninstall_given : 0 < uninstall ↔ o.uninstall_given = true
  exclusive : ¬(o.install_given = true ∧ o.uninstall_given = true)

theorem nameProcess_keeps (snapshot : Snapshot) (o : Options) (optarg : List WCHAR) :
    (nameProcess snapshot o optarg).process_id_given = true ∧
      (nameProcess snapshot o optarg).install_given = o.install_given ∧
      (nameProcess snapshot o optarg).uninstall_given = o.uninstall_given := by
  unfold nameProcess
  split <;> exact ⟨rfl,rfl,rfl⟩

/-- What an option that is accepted does. -/
theorem switch_ok {b : Build} {snapshot : Snapshot} {o o' : Options} {c optopt : ℤ}
    {optarg : Option (List WCHAR)} (h : switch b snapshot o c optopt optarg = .ok o') :
    (c = int 'i' ∧ o.uninstall_given = false ∧ o' = { o with install_given := true }) ∨
    (c = int 'u' ∧ o.install_given = false ∧ o' = { o with uninstall_given := true }) ∨
    (c = int 'p' ∧ o.process_id_given = false ∧ o'.dwProcessId ≠ 0 ∧
      o' = nameProcess snapshot o (optarg.getD [])) ∨
    (c ≠ int 'i' ∧ c ≠ int 'u' ∧ c ≠ int 'p' ∧ o'.process_id_given = o.process_id_given ∧
      o'.dwProcessId = o.dwProcessId ∧ o'.install_given = o.install_given ∧
      o'.uninstall_given = o.uninstall_given) := by
  rw [switch] at h
  by_cases hquestion : c = int '?'
  · rw [if_pos hquestion] at h
    split at h <;> cases h
  rw [if_neg hquestion] at h
  by_cases hhelp : c = int 'h'
  · rw [if_pos hhelp] at h
    cases h
  rw [if_neg hhelp] at h
  by_cases hversion : c = int 'V'
  · rw [if_pos hversion] at h
    cases h
  rw [if_neg hversion] at h
  by_cases hi : c = int 'i'
  · rw [if_pos hi] at h
    split at h
    · cases h
    · next hu => exact .inl ⟨hi,by simpa using hu,(Except.ok.inj h).symm⟩
  rw [if_neg hi] at h
  by_cases hu : c = int 'u'
  · rw [if_pos hu] at h
    split at h
    · cases h
    · next hi => exact .inr (.inl ⟨hu,by simpa using hi,(Except.ok.inj h).symm⟩)
  rw [if_neg hu] at h
  by_cases hp : c = int 'p'
  · rw [if_pos hp,onProcess] at h
    split at h
    · cases h
    · next hgiven =>
      split at h
      · cases h
      · next hid =>
        obtain rfl := Except.ok.inj h
        exact .inr (.inr (.inl ⟨hp,by simpa using hgiven,hid,rfl⟩))
  rw [if_neg hp] at h
  right; right; right
  refine ⟨hi,hu,hp,?_⟩
  split at h
  · split at h
    · cases h
    · obtain rfl := Except.ok.inj h
      exact ⟨rfl,rfl,rfl,rfl⟩
  split at h
  · obtain rfl := Except.ok.inj h
    exact ⟨rfl,rfl,rfl,rfl⟩
  split at h
  · obtain rfl := Except.ok.inj h
    exact ⟨rfl,rfl,rfl,rfl⟩
  split at h
  · obtain rfl := Except.ok.inj h
    exact ⟨rfl,rfl,rfl,rfl⟩
  split at h
  · obtain rfl := Except.ok.inj h
    exact ⟨rfl,rfl,rfl,rfl⟩
  · cases h

theorem switch_sound {b : Build} {snapshot : Snapshot} {o o' : Options} {c optopt : ℤ}
    {optarg : Option (List WCHAR)} (h : switch b snapshot o c optopt optarg = .ok o')
    {process install uninstall : ℕ} (hs : Sound process install uninstall o) :
    Sound (process + if c = int 'p' then 1 else 0) (install + if c = int 'i' then 1 else 0)
      (uninstall + if c = int 'u' then 1 else 0) o' := by
  rcases switch_ok h with ⟨hc,hu,rfl⟩ | ⟨hc,hi,rfl⟩ | ⟨hc,hgiven,hid,rfl⟩ |
    ⟨hi,hu,hp,hgiven,hid,hinstall,huninstall⟩
  · subst hc
    rw [if_neg (by decide),if_pos rfl,if_neg (by decide)]
    exact ⟨hs.process_given,hs.process_id,iff_of_true (by omega) rfl,hs.uninstall_given,
      fun h => by simp [hu] at h⟩
  · subst hc
    rw [if_neg (by decide),if_neg (by decide),if_pos rfl]
    exact ⟨hs.process_given,hs.process_id,hs.install_given,iff_of_true (by omega) rfl,
      fun h => by simp [hi] at h⟩
  · subst hc
    rw [if_pos rfl,if_neg (by decide),if_neg (by decide)]
    obtain ⟨hprocess,hinstall,huninstall⟩ := nameProcess_keeps snapshot o (optarg.getD [])
    have hzero : process = 0 := by rw [hs.process_given,hgiven]; rfl
    refine ⟨by rw [hzero,hprocess]; rfl,fun _ => hid,?_,?_,?_⟩
    · rw [hinstall]
      exact hs.install_given
    · rw [huninstall]
      exact hs.uninstall_given
    · rw [hinstall,huninstall]
      exact hs.exclusive
  · simp only [hi,hu,hp,if_false,Nat.add_zero]
    exact ⟨hgiven ▸ hs.process_given,by rw [hgiven,hid]; exact hs.process_id,
      hinstall ▸ hs.install_given,huninstall ▸ hs.uninstall_given,
      by rw [hinstall,huninstall]; exact hs.exclusive⟩

/-- An event that is accepted is an option, and is counted as what it is. -/
theorem react_sound {env : Environment} {o o' : Options} {e : Event WCHAR LongOption}
    (h : react env o e = .ok o') {process install uninstall : ℕ}
    (hs : Sound process install uninstall o) :
    Sound (process + if isOption 'p' e then 1 else 0) (install + if isOption 'i' e then 1 else 0)
      (uninstall + if isOption 'u' e then 1 else 0) o' := by
  have hstop (optopt : ℤ) : switch env.build env.snapshot o unknown optopt none ≠ .ok o' := by
    have hquestion : unknown = int '?' := by decide
    rw [switch,if_pos hquestion]
    split <;> rintro ⟨⟩
  cases e with
  | option k value =>
    cases k with
    | letter c => simpa [isOption] using switch_sound h hs
    | long opt => simpa [isOption] using switch_sound h hs
  | unknown c => exact (hstop _ h).elim
  | missing k => cases k <;> exact (hstop _ h).elim
  | excess opt => exact (hstop _ h).elim
  | stray a => exact (hstop _ h).elim
  | operand a =>
    have herror : react env o (.operand a) =
      .error (.message (charMessage "Unexpected option '-" ordered) 1) := rfl
    rw [herror] at h
    cases h

theorem events_sound {env : Environment} {o o' : Options}
    {events : List (Event WCHAR LongOption)} (h : events.foldlM (react env) o = .ok o')
    {process install uninstall : ℕ} (hs : Sound process install uninstall o) :
    Sound (process + events.countP (isOption 'p')) (install + events.countP (isOption 'i'))
      (uninstall + events.countP (isOption 'u')) o' := by
  induction events generalizing o process install uninstall with
  | nil =>
    obtain rfl : o = o' := Except.ok.inj h
    exact hs
  | cons e events ih =>
    rw [List.foldlM_cons] at h
    cases he : react env o e with
    | error out => simp [he,bind,Except.bind] at h
    | ok o₁ =>
      rw [he] at h
      have hrest := ih h (react_sound he hs)
      simpa only [List.countP_cons,Nat.add_assoc,Nat.add_comm (List.countP _ events)] using hrest

def flag (given : Bool) (option : String) : List WCHAR := if given then wide option else []

/-- The `Debugger` value `install` writes. -/
def debuggerCommand (szFile : List WCHAR) (o : Options) : List WCHAR :=
  [QUOTE] ++ szFile ++ wide "\" -p %ld -e %ld" ++ flag o.debugOptions.verbose_flag " -v" ++
    flag o.debugOptions.breakpoint_flag " -b" ++ flag o.debug_flag " -d"

/-- The two views of the registry on 64-bit Windows. -/
inductive View
  | native | wow32
  deriving DecidableEq

/-- The values of the `AeDebug` key. -/
structure AeDebug where
  Debugger : Option (List WCHAR) := none
  Auto : Option (List WCHAR) := none

/-- The key in either view, where it exists. -/
abbrev Registry := View → Option AeDebug

def ERROR_SUCCESS : DWORD := 0

/-- What the system answers while the debugger is registered. -/
structure RegistryAnswers where
  GetModuleFileNameW : Option (List WCHAR)
  GetLastError : DWORD
  RegCreateKeyExW : View → DWORD
  RegOpenKeyExW : View → DWORD
  setDebugger : View → DWORD
  setAuto : View → DWORD

/-- `install` in one view. -/
def install (a : RegistryAnswers) (o : Options) (samDesired : View) (r : Registry) :
    DWORD × Registry :=
  match a.GetModuleFileNameW with
  | none => (a.GetLastError,r)
  | some szFile =>
    if a.RegCreateKeyExW samDesired ≠ ERROR_SUCCESS then (a.RegCreateKeyExW samDesired,r)
    else
      let key := (r samDesired).getD {}
      if a.setDebugger samDesired ≠ ERROR_SUCCESS then
        (a.setDebugger samDesired,Function.update r samDesired (some key))
      else
        let key := { key with Debugger := some (debuggerCommand szFile o) }
        if a.setAuto samDesired ≠ ERROR_SUCCESS then
          (a.setAuto samDesired,Function.update r samDesired (some key))
        else
          (ERROR_SUCCESS,Function.update r samDesired (some { key with Auto := some (wide "1") }))

/-- `uninstall` in one view. `Auto` is left as it is. -/
def uninstall (a : RegistryAnswers) (samDesired : View) (r : Registry) : DWORD × Registry :=
  if a.RegOpenKeyExW samDesired ≠ ERROR_SUCCESS then (a.RegOpenKeyExW samDesired,r)
  else if a.setDebugger samDesired ≠ ERROR_SUCCESS then (a.setDebugger samDesired,r)
  else
    (ERROR_SUCCESS,
      Function.update r samDesired ((r samDesired).map fun key => { key with Debugger := some [] }))

/-- Both views in turn, the second one on 64-bit Windows and after success only. -/
def inBothViews (b : Build) (f : View → Registry → DWORD × Registry) (r : Registry) :
    DWORD × Registry :=
  let first := f .native r
  if b.win64 ∧ first.1 = ERROR_SUCCESS then f .wow32 first.2 else first

/-- The exit code `wmain` returns behind its message box. -/
def exitCode (dwRet : DWORD) : ℕ := if dwRet ≠ ERROR_SUCCESS then 1 else 0

/-- The views a build registers itself in. -/
def Uses (b : Build) : View → Prop
  | .native => True
  | .wow32 => b.win64 = true

/-- Every call succeeds. -/
def granted : RegistryAnswers where
  GetModuleFileNameW := some (wide "C:\\drmingw.exe")
  GetLastError := 5
  RegCreateKeyExW _ := ERROR_SUCCESS
  RegOpenKeyExW _ := ERROR_SUCCESS
  setDebugger _ := ERROR_SUCCESS
  setAuto _ := ERROR_SUCCESS

theorem install_success {a : RegistryAnswers} {o : Options} {view : View} {r : Registry}
    (h : (install a o view r).1 = ERROR_SUCCESS)
    (hname : a.GetModuleFileNameW = none → a.GetLastError ≠ ERROR_SUCCESS) :
    ∃ szFile, a.GetModuleFileNameW = some szFile ∧
      (install a o view r).2 = Function.update r view
        (some ⟨some (debuggerCommand szFile o),some (wide "1")⟩) := by
  unfold install at h ⊢
  cases hfile : a.GetModuleFileNameW with
  | none =>
    simp only [hfile] at h
    exact absurd h (hname hfile)
  | some szFile =>
    refine ⟨szFile,rfl,?_⟩
    simp only [hfile] at h ⊢
    split at h
    · next hne => exact absurd h hne
    · split at h
      · next hne => exact absurd h hne
      · split at h
        · next hne => exact absurd h hne
        · next h₁ h₂ h₃ => rw [if_neg h₁,if_neg h₂,if_neg h₃]

theorem inBothViews_success {b : Build} {f : View → Registry → DWORD × Registry} {r : Registry}
    (h : (inBothViews b f r).1 = ERROR_SUCCESS) :
    (f .native r).1 = ERROR_SUCCESS ∧
      (if b.win64 then
        (f .wow32 (f .native r).2).1 = ERROR_SUCCESS ∧
          (inBothViews b f r).2 = (f .wow32 (f .native r).2).2
      else (inBothViews b f r).2 = (f .native r).2) := by
  unfold inBothViews at h ⊢
  by_cases hfirst : (f .native r).1 = ERROR_SUCCESS
  · cases hb : b.win64
    · simp [hfirst]
    · simp only [hb,hfirst,and_self,if_true] at h ⊢
      simp [h]
  · simp [hfirst] at h

/-- Success means that every view in use names the debugger, with the options it was
installed with. -/
theorem registered {b : Build} {a : RegistryAnswers} {o : Options} {r : Registry}
    (hname : a.GetModuleFileNameW = none → a.GetLastError ≠ ERROR_SUCCESS)
    (h : (inBothViews b (install a o) r).1 = ERROR_SUCCESS) :
    ∃ szFile, a.GetModuleFileNameW = some szFile ∧
      ∀ view, Uses b view → (inBothViews b (install a o) r).2 view =
        some ⟨some (debuggerCommand szFile o),some (wide "1")⟩ := by
  obtain ⟨hnative,hrest⟩ := inBothViews_success h
  obtain ⟨szFile,hfile,hr⟩ := install_success hnative hname
  refine ⟨szFile,hfile,fun view hview => ?_⟩
  cases hb : b.win64 with
  | false =>
    simp only [hb,Bool.false_eq_true,if_false] at hrest
    cases view with
    | native => simp [hrest,hr]
    | wow32 => simp [Uses,hb] at hview
  | true =>
    simp only [hb,if_true] at hrest
    obtain ⟨hwow,hfinal⟩ := hrest
    obtain ⟨szFile',hfile',hr'⟩ := install_success hwow hname
    obtain rfl : szFile = szFile' := Option.some.inj (hfile.symm.trans hfile')
    rw [hfinal,hr',hr]
    cases view <;> simp [Function.update]

theorem uninstall_success {a : RegistryAnswers} {view : View} {r : Registry}
    (h : (uninstall a view r).1 = ERROR_SUCCESS) :
    (uninstall a view r).2 = Function.update r view
      ((r view).map fun key => { key with Debugger := some [] }) := by
  unfold uninstall at h ⊢
  split at h
  · next hne => exact absurd h hne
  · split at h
    · next hne => exact absurd h hne
    · next h₁ h₂ => rw [if_neg h₁,if_neg h₂]

/-- Installing and then uninstalling leaves no debugger behind in any view in use, and
`Auto` as the installation set it. -/
theorem unregistered {b : Build} {a a' : RegistryAnswers} {o : Options} {r : Registry}
    (hname : a.GetModuleFileNameW = none → a.GetLastError ≠ ERROR_SUCCESS)
    (h : (inBothViews b (install a o) r).1 = ERROR_SUCCESS)
    (h' : (inBothViews b (uninstall a') (inBothViews b (install a o) r).2).1 = ERROR_SUCCESS) :
    ∀ view, Uses b view →
      (inBothViews b (uninstall a') (inBothViews b (install a o) r).2).2 view =
        some ⟨some [],some (wide "1")⟩ := by
  obtain ⟨szFile,-,hinstalled⟩ := registered hname h
  obtain ⟨hnative,hrest⟩ := inBothViews_success h'
  intro view hview
  have hn := hinstalled .native trivial
  cases hb : b.win64 with
  | false =>
    simp only [hb,Bool.false_eq_true,if_false] at hrest
    cases view with
    | native => simp [hrest,uninstall_success hnative,hn]
    | wow32 => simp [Uses,hb] at hview
  | true =>
    have hw := hinstalled .wow32 hb
    simp only [hb,if_true] at hrest
    obtain ⟨hwow,hfinal⟩ := hrest
    rw [hfinal,uninstall_success hwow,uninstall_success hnative]
    cases view <;> simp [Function.update,hn,hw]

theorem unregistered_granted :
    (inBothViews {} (uninstall granted)
      (inBothViews {} (install granted {}) fun _ => none).2).2 .wow32 =
      some ⟨some [],some (wide "1")⟩ :=
  unregistered (by simp [granted]) (by decide) (by decide) .wow32 rfl

def PERCENT : WCHAR := 0x25

/-- A 32-bit value as the `long` that `%ld` prints. -/
def asLong (v : DWORD) : ℤ := if v.toNat < 2^31 then (v.toNat : ℤ) else v.toNat - 2^32

/-- The system starts the debugger with its `Debugger` value, where the identifier of the
crashed process and the handle of an event stand in the places of the two numbers. -/
structure Launcher where
  fill : List WCHAR → DWORD → DWORD → List WCHAR
  fill_eq : ∀ front middle back dwProcessId hEvent,
    PERCENT ∉ front → PERCENT ∉ middle → PERCENT ∉ back →
    fill (front ++ wide "%ld" ++ middle ++ wide "%ld" ++ back) dwProcessId hEvent =
      front ++ CNumbers.printLong (asLong dwProcessId) ++ middle ++
        CNumbers.printLong (asLong hEvent) ++ back

/-- The options the debugger was installed with, as arguments. -/
def flagWords (o : Options) : List (List WCHAR) :=
  (if o.debugOptions.verbose_flag then [wide "-v"] else []) ++
    (if o.debugOptions.breakpoint_flag then [wide "-b"] else []) ++
    if o.debug_flag then [wide "-d"] else []

/-- The arguments the debugger is started with. -/
def launchWords (o : Options) (dwProcessId hEvent : DWORD) : List (List WCHAR) :=
  [wide "-p",CNumbers.printLong (asLong dwProcessId),wide "-e",
    CNumbers.printLong (asLong hEvent)] ++ flagWords o

theorem percent_notMem_flag (given : Bool) {option : String} (h : PERCENT ∉ wide option) :
    PERCENT ∉ flag given option := by
  unfold flag
  split
  · exact h
  · simp

theorem needsQuote_plain_word {w : List WCHAR}
    (h : ∀ c ∈ w, c ≠ SPACE ∧ c ≠ TAB ∧ c ≠ QUOTE ∧ c ≠ BACKSLASH) : needsQuote w = false := by
  induction w with
  | nil => rfl
  | cons c w ih =>
    obtain ⟨hc,hw⟩ := List.forall_mem_cons.mp h
    rw [needsQuote_plain (by simp [hc]) hc.2.2.2]
    exact ih hw

/-- A word of plain characters stands in a command line as it is. -/
def Plain (w : List WCHAR) : Prop :=
  w ≠ [] ∧ ∀ c ∈ w, c ≠ SPACE ∧ c ≠ TAB ∧ c ≠ QUOTE ∧ c ≠ BACKSLASH

theorem Plain.survives {w : List WCHAR} (h : Plain w) : Survives w := by
  have hn := needsQuote_plain_word h.2
  exact ⟨h.1,by simp [hn],fun _ => ⟨fun hs => (h.2 _ hs).1 rfl,fun ht => (h.2 _ ht).2.1 rfl⟩⟩

theorem Plain.encode {w : List WCHAR} (h : Plain w) : encode w = w := by
  simp [CommandLine.encode,needsQuote_plain_word h.2]

theorem plain_printLong (v : ℤ) : Plain (CNumbers.printLong v) := by
  constructor
  · unfold CNumbers.printLong
    split
    · simp
    · exact Numerals.numeral_ne_nil _
  · intro c hc
    rcases CNumbers.mem_printLong hc with rfl | ⟨hlow,hhigh⟩
    · decide
    · refine ⟨?_,?_,?_,?_⟩ <;> rintro rfl <;> revert hlow hhigh <;> decide

theorem plain_option {c : WCHAR} (hc : c ≠ SPACE ∧ c ≠ TAB ∧ c ≠ QUOTE ∧ c ≠ BACKSLASH) :
    Plain [switchar,c] := by
  refine ⟨by simp,List.forall_mem_cons.mpr ⟨?_,List.forall_mem_singleton.mpr hc⟩⟩
  refine ⟨?_,?_,?_,?_⟩ <;> decide

theorem plain_launchWords (o : Options) (dwProcessId hEvent : DWORD) :
    ∀ w ∈ launchWords o dwProcessId hEvent, Plain w := by
  have hflags : ∀ w ∈ flagWords o, Plain w := by
    have hv : Plain (wide "-v") := plain_option (c := 0x76) (by refine ⟨?_,?_,?_,?_⟩ <;> decide)
    have hb : Plain (wide "-b") := plain_option (c := 0x62) (by refine ⟨?_,?_,?_,?_⟩ <;> decide)
    have hd : Plain (wide "-d") := plain_option (c := 0x64) (by refine ⟨?_,?_,?_,?_⟩ <;> decide)
    intro w hw
    simp only [flagWords,List.mem_append] at hw
    rcases hw with (hw | hw) | hw
    · split at hw <;> simp at hw; exact hw ▸ hv
    · split at hw <;> simp at hw; exact hw ▸ hb
    · split at hw <;> simp at hw; exact hw ▸ hd
  intro w hw
  rcases List.mem_append.mp hw with hw | hw
  · simp only [List.mem_cons,List.not_mem_nil,or_false] at hw
    rcases hw with rfl | rfl | rfl | rfl
    · exact plain_option (c := 0x70) (by refine ⟨?_,?_,?_,?_⟩ <;> decide)
    · exact plain_printLong _
    · exact plain_option (c := 0x65) (by refine ⟨?_,?_,?_,?_⟩ <;> decide)
    · exact plain_printLong _
  · exact hflags w hw

theorem encodeTail_plain {words : List (List WCHAR)} (h : ∀ w ∈ words, Plain w) :
    encodeTail words = words.flatMap fun w => SPACE :: w := by
  induction words with
  | nil => rfl
  | cons w words ih =>
    obtain ⟨hw,hwords⟩ := List.forall_mem_cons.mp h
    have htail := ih hwords
    unfold encodeTail at htail ⊢
    rw [List.flatMap_cons,List.flatMap_cons,hw.encode,htail]

/-- The text of the flags is the text of their words. -/
theorem flags_text (o : Options) :
    flag o.debugOptions.verbose_flag " -v" ++ flag o.debugOptions.breakpoint_flag " -b" ++
        flag o.debug_flag " -d" =
      (flagWords o).flatMap fun w => SPACE :: w := by
  unfold flag flagWords
  cases o.debugOptions.verbose_flag <;> cases o.debugOptions.breakpoint_flag <;>
    cases o.debug_flag <;> rfl

/-- The text the system starts the debugger with. -/
theorem fill_debuggerCommand (l : Launcher) {szFile : List WCHAR} (hpercent : PERCENT ∉ szFile)
    (o : Options) (dwProcessId hEvent : DWORD) :
    l.fill (debuggerCommand szFile o) dwProcessId hEvent =
      QUOTE :: szFile ++ [QUOTE] ++ encodeTail (launchWords o dwProcessId hEvent) := by
  have hfront : PERCENT ∉ [QUOTE] ++ szFile ++ wide "\" -p " := by
    have hquote : PERCENT ≠ QUOTE := by decide
    have hoption : PERCENT ∉ wide "\" -p " := by decide
    simp [hpercent,hquote,hoption]
  have hback : PERCENT ∉ flag o.debugOptions.verbose_flag " -v" ++
      flag o.debugOptions.breakpoint_flag " -b" ++ flag o.debug_flag " -d" := by
    have hv := percent_notMem_flag o.debugOptions.verbose_flag
      (show PERCENT ∉ wide " -v" by decide)
    have hb := percent_notMem_flag o.debugOptions.breakpoint_flag
      (show PERCENT ∉ wide " -b" by decide)
    have hd := percent_notMem_flag o.debug_flag (show PERCENT ∉ wide " -d" by decide)
    simp [hv,hb,hd]
  have hfill := l.fill_eq _ (wide " -e ") _ dwProcessId hEvent hfront (by decide) hback
  have htext : wide "\" -p %ld -e %ld" =
    wide "\" -p " ++ wide "%ld" ++ wide " -e " ++ wide "%ld" := rfl
  have hcommand : debuggerCommand szFile o =
      [QUOTE] ++ szFile ++ wide "\" -p " ++ wide "%ld" ++ wide " -e " ++ wide "%ld" ++
        (flag o.debugOptions.verbose_flag " -v" ++ flag o.debugOptions.breakpoint_flag " -b" ++
          flag o.debug_flag " -d") := by
    rw [debuggerCommand,htext]
    simp only [List.append_assoc]
  rw [hcommand,hfill,encodeTail_plain (plain_launchWords o dwProcessId hEvent),flags_text]
  have hprocess : wide "\" -p " = QUOTE :: SPACE :: wide "-p" ++ [SPACE] := rfl
  have hevent : wide " -e " = SPACE :: wide "-e" ++ [SPACE] := rfl
  rw [hprocess,hevent]
  simp [launchWords]

theorem quoteLoop_of_notMem {arg : List WCHAR} (h : QUOTE ∉ arg) (n : ℕ) :
    quoteLoop n arg = arg := by
  induction arg generalizing n with
  | nil => rfl
  | cons c arg ih =>
    have hc : c ≠ QUOTE := fun he => h (by simp [he])
    have harg : QUOTE ∉ arg := fun hq => h (by simp [hq])
    by_cases hs : c = BACKSLASH
    · rw [quoteLoop,if_neg hc,if_pos hs,ih harg]
    · rw [quoteLoop,if_neg hc,if_neg hs,ih harg]

/-- A path in quotes, as the installation writes it, is read as the path. -/
theorem split_quoted_path {path s : List WCHAR} (hq : QUOTE ∉ path)
    (hlast : path.getLast? ≠ some BACKSLASH) (hs : ArgumentSplit.Stops msvcrt s) :
    ArgumentSplit.split msvcrt (QUOTE :: path ++ [QUOTE] ++ s) =
      path :: ArgumentSplit.split msvcrt s := by
  obtain ⟨t,m,hl,he,hsp⟩ := split_quoted path s
  have hm : m = 0 := by
    by_contra h0
    apply hlast
    obtain ⟨k,rfl⟩ := Nat.exists_eq_succ_of_ne_zero h0
    rw [← he,List.replicate_succ']
    simp
  subst hm
  obtain rfl : t = path := by simpa using he
  rw [quoteLoop_of_notMem hq] at hsp
  rw [hsp]
  simpa using ArgumentSplit.splitFrom_stops hs 0 t

theorem split_launch (l : Launcher) {szFile : List WCHAR} (hquote : QUOTE ∉ szFile)
    (hpercent : PERCENT ∉ szFile) (hlast : szFile.getLast? ≠ some BACKSLASH) (o : Options)
    (dwProcessId hEvent : DWORD) :
    ArgumentSplit.split msvcrt (l.fill (debuggerCommand szFile o) dwProcessId hEvent) =
      szFile :: launchWords o dwProcessId hEvent := by
  have hsurvive : ∀ w ∈ launchWords o dwProcessId hEvent, Survives w :=
    fun w hw => (plain_launchWords o dwProcessId hEvent w hw).survives
  rw [fill_debuggerCommand l hpercent,split_quoted_path hquote hlast (encodeTail_stops _),
    split_encodeTail,split_commandLine_of_survives hsurvive]

/-- The options the started debugger has read. -/
def launched (b : Build) (o : Options) (dwProcessId hEvent : DWORD) : Options where
  debugOptions :=
    { first_chance := true
      hEvent := toHandle b (asLong hEvent)
      verbose_flag := o.debugOptions.verbose_flag
      breakpoint_flag := o.debugOptions.breakpoint_flag }
  debug_flag := o.debug_flag
  process_id_given := true
  dwProcessId := dwProcessId

theorem reading_cons {posixlyCorrect : Bool} {args used rest : List (List WCHAR)}
    {e : Event WCHAR LongOption}
    (h : (getoptCall posixlyCorrect).grammar.read ⟨[],args⟩ = .step [] ⟨e,used,⟨[],rest⟩⟩) :
    (reading posixlyCorrect args).events = e :: (reading posixlyCorrect rest).events := by
  rw [reading,Grammar.scan_step h]
  rfl

section
variable (posixlyCorrect : Bool) (args : List (List WCHAR))

/-- `-v` begins the names of two long options, and is read as a letter. -/
theorem reading_v : (reading posixlyCorrect (wide "-v" :: args)).events =
    .option (.letter 0x76) none :: (reading posixlyCorrect args).events :=
  reading_cons rfl

theorem reading_b : (reading posixlyCorrect (wide "-b" :: args)).events =
    .option (.long ⟨wide "breakpoint",.no_argument,int 'b',by decide,by decide⟩) none ::
      (reading posixlyCorrect args).events :=
  reading_cons rfl

theorem reading_d : (reading posixlyCorrect (wide "-d" :: args)).events =
    .option (.long ⟨wide "debug",.no_argument,int 'd',by decide,by decide⟩) none ::
      (reading posixlyCorrect args).events :=
  reading_cons rfl

theorem reading_p (value : List WCHAR) :
    (reading posixlyCorrect (wide "-p" :: value :: args)).events =
      .option (.long ⟨wide "process-id",.required_argument,int 'p',by decide,by decide⟩)
        (some value) :: (reading posixlyCorrect args).events :=
  reading_cons rfl

theorem reading_e (value : List WCHAR) :
    (reading posixlyCorrect (wide "-e" :: value :: args)).events =
      .option (.long ⟨wide "event",.required_argument,int 'e',by decide,by decide⟩)
        (some value) :: (reading posixlyCorrect args).events :=
  reading_cons rfl

theorem reading_nil : (reading posixlyCorrect []).events = [] := by
  rw [reading,Grammar.scan_done (show _ = Move.done [] [] [] false from rfl)]

end

theorem events_flags (env : Environment) (o o' : Options) :
    (reading env.posixlyCorrect (flagWords o)).events.foldlM (react env) o' =
      .ok { o' with
        debugOptions := { o'.debugOptions with
          verbose_flag := o'.debugOptions.verbose_flag || o.debugOptions.verbose_flag
          breakpoint_flag := o'.debugOptions.breakpoint_flag || o.debugOptions.breakpoint_flag }
        debug_flag := o'.debug_flag || o.debug_flag } := by
  unfold flagWords
  cases o.debugOptions.verbose_flag <;> cases o.debugOptions.breakpoint_flag <;>
    cases o.debug_flag <;>
    simp only [if_true,if_false,Bool.false_eq_true,List.nil_append,List.append_nil,
      List.cons_append,reading_v,reading_b,reading_d,reading_nil,Bool.or_true,Bool.or_false] <;>
    rfl

theorem asLong_bounds (v : DWORD) : -2^31 ≤ asLong v ∧ asLong v < 2^31 := by
  have hv := v.toNat_lt
  unfold asLong
  split <;> omega

theorem asLong_of_pos {v : DWORD} (h : 0 < asLong v) : asLong v = v.toNat := by
  have hv := v.toNat_lt
  unfold asLong at h ⊢
  split at h
  · rw [if_pos ‹_›]
  · omega

/-- The identifier of a process is printed with a digit in front and read back. -/
theorem onProcess_printLong (snapshot : Snapshot) (o : Options)
    (hgiven : o.process_id_given = false) {v : DWORD} (hv : 0 < asLong v) :
    onProcess snapshot o (CNumbers.printLong (asLong v)) =
      .ok { o with process_id_given := true, dwProcessId := v } := by
  have hnat := asLong_of_pos hv
  have hpos : 0 < v.toNat := by omega
  have hread : CNumbers.wcstoul (CNumbers.printLong (asLong v)) 0 = v := by
    rw [hnat,CNumbers.wcstoul_printLong v.toNat_lt,UInt32.ofNat_toNat]
  have hdigit : 0x30 ≤ (CNumbers.printLong (asLong v)).headD 0 ∧
      (CNumbers.printLong (asLong v)).headD 0 ≤ 0x39 := by
    rw [hnat]
    exact CNumbers.printLong_head v.toNat
  have hne : v ≠ 0 := by
    rintro rfl
    simp at hpos
  have hname : nameProcess snapshot o (CNumbers.printLong (asLong v)) =
      { o with process_id_given := true, dwProcessId := v } := by
    rw [nameProcess,if_pos hdigit,hread]
  simp only [onProcess,hgiven,hname,hne,if_false,Bool.false_eq_true]

/-- The handle of the event is printed and read back with its sign. -/
theorem react_event (env : Environment) (o : Options) (ho : o.debugOptions.hEvent = NULL)
    (hEvent : DWORD) :
    react env o (.option
        (.long ⟨wide "event",.required_argument,int 'e',by decide,by decide⟩)
        (some (CNumbers.printLong (asLong hEvent)))) =
      .ok { o with debugOptions :=
        { o.debugOptions with hEvent := toHandle env.build (asLong hEvent) } } := by
  obtain ⟨hlow,hhigh⟩ := asLong_bounds hEvent
  have hreact (value : List WCHAR) : react env o (.option
      (.long ⟨wide "event",.required_argument,int 'e',by decide,by decide⟩) (some value)) =
      if o.debugOptions.hEvent ≠ NULL then
        .error (.message (wide "`--event' (`-e') option redeclared") 1)
      else .ok { o with debugOptions :=
        { o.debugOptions with hEvent := toHandle env.build (CNumbers.wcstol value 0) } } := rfl
  rw [hreact,if_neg (by simp [ho]),CNumbers.wcstol_printLong hlow hhigh]

theorem reading_launch (posixlyCorrect : Bool) (o : Options) (dwProcessId hEvent : DWORD) :
    (reading posixlyCorrect (launchWords o dwProcessId hEvent)).events =
      .option (.long ⟨wide "process-id",.required_argument,int 'p',by decide,by decide⟩)
          (some (CNumbers.printLong (asLong dwProcessId))) ::
        .option (.long ⟨wide "event",.required_argument,int 'e',by decide,by decide⟩)
          (some (CNumbers.printLong (asLong hEvent))) ::
        (reading posixlyCorrect (flagWords o)).events := by
  rw [launchWords,List.cons_append,List.cons_append,reading_p,List.cons_append,List.cons_append,
    reading_e,List.nil_append]

theorem fold_launch (env : Environment) (o : Options) {dwProcessId : DWORD}
    (hpid : 0 < asLong dwProcessId) (hEvent : DWORD) :
    (reading env.posixlyCorrect (launchWords o dwProcessId hEvent)).events.foldlM (react env) {} =
      .ok (launched env.build o dwProcessId hEvent) := by
  have hp : react env {} (.option
      (.long ⟨wide "process-id",.required_argument,int 'p',by decide,by decide⟩)
      (some (CNumbers.printLong (asLong dwProcessId)))) =
      .ok { process_id_given := true, dwProcessId := dwProcessId } :=
    onProcess_printLong env.snapshot {} rfl hpid
  have he := react_event env { process_id_given := true, dwProcessId := dwProcessId } rfl hEvent
  rw [reading_launch]
  simp only [List.foldlM_cons,hp,bind,Except.bind]
  simp only [he,events_flags]
  simp [launched]

theorem reading_launch_length (posixlyCorrect : Bool) (o : Options) (dwProcessId hEvent : DWORD) :
    (reading posixlyCorrect (launchWords o dwProcessId hEvent)).events.length ≤ 5 := by
  have hflags : (reading posixlyCorrect (flagWords o)).events.length ≤ 3 := by
    unfold flagWords
    cases o.debugOptions.verbose_flag <;> cases o.debugOptions.breakpoint_flag <;>
      cases o.debug_flag <;>
      simp [reading_v,reading_b,reading_d,reading_nil]
  rw [reading_launch,List.length_cons,List.length_cons]
  omega

/-- The debugger the system starts reads its command line back: it attaches to the
crashed process with the event to signal, under the options it was installed with. -/
theorem launch_attaches (env : Environment) (l : Launcher) {szFile : List WCHAR}
    (hquote : QUOTE ∉ szFile) (hpercent : PERCENT ∉ szFile)
    (hlast : szFile.getLast? ≠ some BACKSLASH) (o : Options) {dwProcessId : DWORD}
    (hpid : 0 < asLong dwProcessId) (hEvent : DWORD) (fuel : ℕ) :
    wmain env
        (ArgumentSplit.split msvcrt (l.fill (debuggerCommand szFile o) dwProcessId hEvent))
        (6 + fuel) =
      some (.attach (launched env.build o dwProcessId hEvent)) := by
  obtain ⟨more,hmore⟩ := Nat.exists_eq_add_of_le
    (reading_launch_length env.posixlyCorrect o dwProcessId hEvent)
  have hfuel : 6 + fuel =
      (reading env.posixlyCorrect (launchWords o dwProcessId hEvent)).events.length + 1 +
        (more + fuel) := by omega
  rw [split_launch l hquote hpercent hlast,hfuel,wmain_eq,fold_launch env o hpid]
  rfl

/-- A process is attached to only where one was named, once, and neither installing nor
uninstalling was asked for, and never to process 0. -/
theorem attach_sound (env : Environment) (program : List WCHAR) (args : List (List WCHAR))
    (fuel : ℕ) {o : Options}
    (h : wmain env (program::args) ((reading env.posixlyCorrect args).events.length + 1 + fuel) =
      some (.attach o)) :
    o.dwProcessId ≠ 0 ∧
      (reading env.posixlyCorrect args).events.countP (isOption 'p') = 1 ∧
      (reading env.posixlyCorrect args).events.countP (isOption 'i') = 0 ∧
      (reading env.posixlyCorrect args).events.countP (isOption 'u') = 0 := by
  have hstart : Sound 0 0 0 {} := by constructor <;> simp
  rw [wmain_eq,Option.some.injEq] at h
  cases hfold : (reading env.posixlyCorrect args).events.foldlM (react env) {} with
  | error e => simp [hfold] at h
  | ok o' =>
    have hs := events_sound hfold hstart
    simp only [hfold,task] at h
    split at h
    · simp at h
    · next hi =>
      split at h
      · simp at h
      · next hu =>
        split at h
        · next hp =>
          obtain rfl := Task.attach.inj h
          refine ⟨hs.process_id hp,?_,?_,?_⟩
          · simpa [hp] using hs.process_given
          · have hcount := hs.install_given
            simp only [hi,iff_false,Bool.false_eq_true] at hcount
            omega
          · have hcount := hs.uninstall_given
            simp only [hu,iff_false,Bool.false_eq_true] at hcount
            omega
        · simp at h

theorem attach_sound_launch :
    (launched {} {} 42 7).dwProcessId ≠ 0 ∧
      (reading false (launchWords {} 42 7)).events.countP (isOption 'p') = 1 ∧
      (reading false (launchWords {} 42 7)).events.countP (isOption 'i') = 0 ∧
      (reading false (launchWords {} 42 7)).events.countP (isOption 'u') = 0 :=
  attach_sound {} (wide "drmingw") (launchWords {} 42 7) 0
    (by rw [wmain_eq,fold_launch {} {} (by decide)]; rfl)

/-- `%ld` by `%ld`, as the system does it. -/
def fillNumbers : List WCHAR → List (List WCHAR) → List WCHAR
  | [], _ => []
  | command, [] => command
  | c::command, v::numbers =>
    if c = PERCENT then v ++ fillNumbers (command.drop 2) numbers
    else c :: fillNumbers command (v::numbers)
termination_by command => command.length

theorem fillNumbers_front {front : List WCHAR} (h : PERCENT ∉ front) (rest : List WCHAR)
    (numbers : List (List WCHAR)) :
    fillNumbers (front ++ rest) numbers = front ++ fillNumbers rest numbers := by
  induction front with
  | nil => rfl
  | cons c front ih =>
    have hc : c ≠ PERCENT := fun he => h (by simp [he])
    have hfront : PERCENT ∉ front := fun hp => h (by simp [hp])
    cases numbers with
    | nil => cases rest <;> simp [fillNumbers]
    | cons v numbers => simp [fillNumbers,hc,ih hfront]

def launcher : Launcher where
  fill command dwProcessId hEvent := fillNumbers command
    [CNumbers.printLong (asLong dwProcessId),CNumbers.printLong (asLong hEvent)]
  fill_eq front middle back dwProcessId hEvent hfront hmiddle hback := by
    have hld : wide "%ld" = [PERCENT,0x6C,0x64] := rfl
    have hnil (rest : List WCHAR) : fillNumbers rest [] = rest := by cases rest <;> simp [fillNumbers]
    simp only [hld,List.append_assoc]
    rw [fillNumbers_front hfront]
    simp only [List.cons_append,List.nil_append,fillNumbers,if_true,List.drop_succ_cons,List.drop_zero]
    rw [fillNumbers_front hmiddle]
    simp [fillNumbers,hnil]

theorem granted_path : ∀ szFile, granted.GetModuleFileNameW = some szFile →
    QUOTE ∉ szFile ∧ PERCENT ∉ szFile ∧ szFile.getLast? ≠ some BACKSLASH := by
  intro szFile h
  obtain rfl : wide "C:\\drmingw.exe" = szFile := Option.some.inj h
  decide

/-- From the installation to the crash: whichever of the views of the registry the build uses
the system finds the debugger in, the program it starts attaches to the crashed process, with
the event to signal, under the options it was installed with. -/
theorem jit_round_trip {b : Build} {a : RegistryAnswers} {o : Options} {r : Registry}
    (hname : a.GetModuleFileNameW = none → a.GetLastError ≠ ERROR_SUCCESS)
    (hinstall : exitCode (inBothViews b (install a o) r).1 = 0)
    (hpath : ∀ szFile, a.GetModuleFileNameW = some szFile →
      QUOTE ∉ szFile ∧ PERCENT ∉ szFile ∧ szFile.getLast? ≠ some BACKSLASH)
    {view : View} (hview : Uses b view) (env : Environment) (l : Launcher) {dwProcessId : DWORD}
    (hpid : 0 < asLong dwProcessId) (hEvent : DWORD) (fuel : ℕ) :
    ∃ key command, (inBothViews b (install a o) r).2 view = some key ∧
      key.Debugger = some command ∧ key.Auto = some (wide "1") ∧
      wmain env (ArgumentSplit.split msvcrt (l.fill command dwProcessId hEvent)) (6 + fuel) =
        some (.attach (launched env.build o dwProcessId hEvent)) := by
  have hsuccess : (inBothViews b (install a o) r).1 = ERROR_SUCCESS := by
    unfold exitCode at hinstall
    by_contra hne
    simp [hne] at hinstall
  obtain ⟨szFile,hfile,hregistered⟩ := registered hname hsuccess
  obtain ⟨hquote,hpercent,hlast⟩ := hpath szFile hfile
  exact ⟨_,_,hregistered view hview,rfl,rfl,
    launch_attaches env l hquote hpercent hlast o hpid hEvent fuel⟩

theorem jit_round_trip_granted :
    ∃ key command, (inBothViews {} (install granted { debug_flag := true }) fun _ => none).2 .wow32 =
        some key ∧
      key.Debugger = some command ∧ key.Auto = some (wide "1") ∧
      wmain {} (ArgumentSplit.split msvcrt (launcher.fill command 42 0x80000004)) 6 =
        some (.attach (launched {} { debug_flag := true } 42 0x80000004)) :=
  jit_round_trip (by simp [granted]) (by decide) granted_path (show Uses {} .wow32 from rfl) {} launcher
    (by decide) 0x80000004 0

end JitDebugger
end DrMingw
