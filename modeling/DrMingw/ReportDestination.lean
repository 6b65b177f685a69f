import DrMingw.Machine
import DrMingw.Strings

/-! Where `exchndl` writes its reports: the log file name a caller sets, the handle
obtained for it, and whether the DLL has to close that handle. -/
namespace DrMingw
namespace ReportDestination

/-- What `CreateFileW` returns when it fails. -/
def INVALID_HANDLE_VALUE : HANDLE := 2^64 - 1

/-- The globals of `exchndl.cpp` that say where a report goes. -/
structure Globals where
  g_szLogFileName : List WCHAR
  g_hReportFile : HANDLE := NULL
  g_bOwnReportFile : Bool := false

/-- What the system answers while one exception is handled. -/
structure Answers where
  CreateFileW : List WCHAR → HANDLE
  /-- For `STD_ERROR_HANDLE`; `NULL` when the process has no standard error. -/
  GetStdHandle : HANDLE

inductive Call
  | ExcHndlSetLogFileNameA (pszLogFileName : Option (List CHAR))
  | ExcHndlSetLogFileNameW (pszLogFileName : Option (List WCHAR))
  /-- A top-level exception after which the program goes on. -/
  | TopLevelExceptionFilter (a : Answers)

inductive Action
  | OutputDebug (text : String)
  | GetStdHandle (result : HANDLE)
  | CreateFileW (name : List WCHAR) (result : HANDLE)
  /-- `GenerateExceptionReport` with `g_hReportFile`, set to its end before and
  flushed afterwards. -/
  | report (hReportFile : HANDLE)
  | CloseHandle (h : HANDLE)
  deriving DecidableEq

def invalidLogName : Action :=
  .OutputDebug "EXCHNDL: specified log name is invalid (nullptr)\n"

def ExcHndlSetLogFileNameA (cp : CodePages) (pszLogFileName : Option (List CHAR))
    (g : Globals) : Globals × Bool × List Action :=
  match pszLogFileName with
  | none => (g,false,[invalidLogName])
  | some name => ({ g with g_szLogFileName := cp.ansiToWide name },true,[])

def ExcHndlSetLogFileNameW (pszLogFileName : Option (List WCHAR)) (g : Globals) :
    Globals × Bool × List Action :=
  match pszLogFileName with
  | none => (g,false,[invalidLogName])
  | some name => ({ g with g_szLogFileName := name },true,[])

/-- The handle is obtained once: any value but `NULL` is taken for an open file. -/
def openReportFile (a : Answers) (g : Globals) : Globals × List Action :=
  if g.g_hReportFile = NULL then
    if g.g_szLogFileName = wide "-" then
      ({ g with g_hReportFile := a.GetStdHandle, g_bOwnReportFile := false },
        [.GetStdHandle a.GetStdHandle])
    else if g.g_szLogFileName ≠ [] then
      let name := cstr g.g_szLogFileName
      ({ g with g_hReportFile := a.CreateFileW name, g_bOwnReportFile := true },
        [.CreateFileW name (a.CreateFileW name)])
    else (g,[])
  else (g,[])

/-- The body of the filter, entered by the only activation there is. -/
def TopLevelExceptionFilter (a : Answers) (g : Globals) : Globals × List Action :=
  let r := openReportFile a g
  (r.1,r.2 ++ if r.1.g_hReportFile ≠ NULL then [.report r.1.g_hReportFile] else [])

def Cleanup (g : Globals) : Globals × List Action :=
  if g.g_hReportFile ≠ NULL then
    ({ g with g_hReportFile := NULL },
      if g.g_bOwnReportFile then [.CloseHandle g.g_hReportFile] else [])
  else (g,[])

variable (cp : CodePages) {File : Type} (fileAt : List WCHAR → File) (szDefault : List WCHAR)

/-- The loaded DLL as a machine over the calls made to it. -/
def exchndl : Machine Globals Call Action where
  step g
    | .ExcHndlSetLogFileNameA name =>
      let r := ExcHndlSetLogFileNameA cp name g
      (r.1,r.2.2)
    | .ExcHndlSetLogFileNameW name =>
      let r := ExcHndlSetLogFileNameW name g
      (r.1,r.2.2)
    | .TopLevelExceptionFilter a => TopLevelExceptionFilter a g

/-- The name set by a call that returns `TRUE`. -/
def Call.sets : Call → Option (List WCHAR)
  | .ExcHndlSetLogFileNameA name => name.map cp.ansiToWide
  | .ExcHndlSetLogFileNameW name => name
  | .TopLevelExceptionFilter _ => none

/-- The globals after some calls; `szDefault` is the name set when the DLL is loaded. -/
def globals (cs : List Call) : Globals := (exchndl cp).after ⟨szDefault,NULL,false⟩ cs

def log (cs : List Call) : List Action := (exchndl cp).trace ⟨szDefault,NULL,false⟩ cs

/-- The name set by the most recent successful call, or the default. -/
def asked (cs : List Call) : List WCHAR := ((cs.filterMap (Call.sets cp)).getLast?).getD szDefault

/-- Where a report can be written. -/
inductive Destination (File : Type)
  | stdErr
  | file (f : File)
  deriving DecidableEq

/-- What a log file name asks for; the empty name asks for no report. -/
def destination (name : List WCHAR) : Option (Destination File) :=
  if name = wide "-" then some .stdErr
  else if name = [] then none
  else some (.file (fileAt (cstr name)))

/-- A handle obtained, with the destination it was obtained for. -/
def Action.obtained : Action → Option (HANDLE × Destination File)
  | .GetStdHandle h => some (h,.stdErr)
  | .CreateFileW name h => some (h,.file (fileAt name))
  | _ => none

/-- What is written to through a handle: nothing unless it is valid, and else the
destination it was last obtained for. -/
def referent (as : List Action) (h : HANDLE) : Option (Destination File) :=
  if h = INVALID_HANDLE_VALUE then none
  else ((as.filterMap (Action.obtained fileAt)).reverse.find? fun x => x.1 = h).map (·.2)

/-- What is done about one more exception. -/
def reaction (pre : List Call) (a : Answers) : List Action :=
  (exchndl cp).emit (globals cp szDefault pre) (.TopLevelExceptionFilter a)

/-- The destination a report is written to, given what has been done so far. -/
def Action.writes (as : List Action) : Action → Option (Destination File)
  | .report h => referent fileAt as h
  | _ => none

/-- The destinations to which the report of an exception is written. -/
def writtenTo (pre : List Call) (a : Answers) : List (Destination File) :=
  (reaction cp szDefault pre a).filterMap
    (Action.writes fileAt (log cp szDefault pre ++ reaction cp szDefault pre a))

/-- No valid handle is obtained. -/
def Action.openFails : Action → Bool
  | .GetStdHandle h | .CreateFileW _ h => h = NULL || h = INVALID_HANDLE_VALUE
  | _ => false

/-- The report is written to the destination asked for, or nowhere when that has
just failed to open. -/
def Delivered (pre : List Call) (a : Answers) : Prop :=
  writtenTo cp fileAt szDefault pre a = (destination fileAt (asked cp szDefault pre)).toList ∨
    ((reaction cp szDefault pre a).any Action.openFails = true ∧
      writtenTo cp fileAt szDefault pre a = [])

/-- Every report goes where the caller last asked; a failed open is not remembered;
and whenever the DLL is unloaded it closes only what it has opened. -/
structure ReportsWhereAsked (cs : List Call) : Prop where
  delivered : Machine.AtEach (fun pre c => ∀ a, c = .TopLevelExceptionFilter a →
    Delivered cp fileAt szDefault pre a) cs
  notRemembered : ∀ pre post, cs = pre ++ post →
    (globals cp szDefault pre).g_hReportFile ≠ INVALID_HANDLE_VALUE
  closesOwn : ∀ pre post, cs = pre ++ post → ∀ h,
    .CloseHandle h ∈ log cp szDefault pre ++ (Cleanup (globals cp szDefault pre)).2 →
      h ≠ INVALID_HANDLE_VALUE ∧ ∃ name, .CreateFileW name h ∈ log cp szDefault pre

/-- The answer to the attempt to open `name`. -/
def Answers.openAt (a : Answers) (name : List WCHAR) : HANDLE :=
  if name = wide "-" then a.GetStdHandle else a.CreateFileW (cstr name)

/-- The call is an exception that finds a name and gets a handle for it, valid or not. -/
def Opens (pre : List Call) (c : Call) : Prop :=
  ∃ a, c = .TopLevelExceptionFilter a ∧ asked cp szDefault pre ≠ [] ∧
    a.openAt (asked cp szDefault pre) ≠ NULL

def NoneOpens (cs : List Call) : Prop :=
  Machine.AtEach (fun pre c => ¬Opens cp szDefault pre c) cs

/-- The first exception that gets a handle gets a valid one, and every later
exception finds a name of the same destination. -/
def KeepsDestination (cs : List Call) : Prop :=
  Machine.AtEach (fun pre c => ∀ a, c = .TopLevelExceptionFilter a →
    (NoneOpens cp szDefault pre → asked cp szDefault pre ≠ [] →
      a.openAt (asked cp szDefault pre) ≠ INVALID_HANDLE_VALUE) ∧
    ∀ q c' r, pre = q ++ c'::r → NoneOpens cp szDefault q → Opens cp szDefault q c' →
      destination fileAt (asked cp szDefault q) = destination fileAt (asked cp szDefault pre)) cs

section Proofs

variable {cp fileAt szDefault} {cs pre : List Call} {c : Call} {a : Answers}

theorem globals_concat : globals cp szDefault (cs ++ [c]) =
    (exchndl cp).next (globals cp szDefault cs) c := Machine.after_concat ..

theorem log_concat : log cp szDefault (cs ++ [c]) =
    log cp szDefault cs ++ (exchndl cp).emit (globals cp szDefault cs) c := by
  simp [log,globals,Machine.trace_append]

theorem asked_concat : asked cp szDefault (cs ++ [c]) =
    (c.sets cp).getD (asked cp szDefault cs) := by
  simp only [asked,List.filterMap_append]
  cases h : c.sets cp <;> simp [h]

theorem openReportFile_name (a : Answers) (g : Globals) :
    (openReportFile a g).1.g_szLogFileName = g.g_szLogFileName := by
  simp only [openReportFile]
  repeat' split
  all_goals rfl

/-- The global holds the name set last. -/
theorem globals_name (cp : CodePages) (szDefault : List WCHAR) (cs : List Call) :
    (globals cp szDefault cs).g_szLogFileName = asked cp szDefault cs := by
  induction cs using List.reverseRecOn with
  | nil => rfl
  | append_singleton cs c ih =>
    rw [globals_concat,asked_concat,← ih]
    cases c with
    | ExcHndlSetLogFileNameA name => cases name <;> rfl
    | ExcHndlSetLogFileNameW name => cases name <;> rfl
    | TopLevelExceptionFilter a => exact openReportFile_name a _

theorem openReportFile_cached {g : Globals} (h : g.g_hReportFile ≠ NULL) (a : Answers) :
    openReportFile a g = (g,[]) := by
  simp [openReportFile,h]

/-- What an exception does when no handle is held and a name is set. -/
theorem openReportFile_opens (fileAt : List WCHAR → File) {g : Globals} (h : g.g_hReportFile = NULL)
    (hn : g.g_szLogFileName ≠ []) (a : Answers) :
    ∃ d x, destination fileAt g.g_szLogFileName = some d ∧
      openReportFile a g = ({ g with
        g_hReportFile := a.openAt g.g_szLogFileName
        g_bOwnReportFile := decide (g.g_szLogFileName ≠ wide "-") },[x]) ∧
      x.obtained fileAt = some (a.openAt g.g_szLogFileName,d) ∧
      x.openFails = (a.openAt g.g_szLogFileName = NULL ||
        a.openAt g.g_szLogFileName = INVALID_HANDLE_VALUE) := by
  by_cases hm : g.g_szLogFileName = wide "-"
  · exact ⟨.stdErr,.GetStdHandle a.GetStdHandle,by simp [destination,hm],
      by simp [openReportFile,h,hm,Answers.openAt],by simp [Action.obtained,Answers.openAt,hm],
      by simp [Action.openFails,Answers.openAt,hm]⟩
  · exact ⟨.file (fileAt (cstr g.g_szLogFileName)),
      .CreateFileW (cstr g.g_szLogFileName) (a.CreateFileW (cstr g.g_szLogFileName)),
      by simp [destination,hm,hn],by simp [openReportFile,h,hm,hn,Answers.openAt],
      by simp [Action.obtained,Answers.openAt,hm],by simp [Action.openFails,Answers.openAt,hm]⟩

theorem obtained_report (h : HANDLE) : (Action.report h).obtained fileAt = none := rfl

theorem writes_of_obtained {x : Action} {y : HANDLE × Destination File}
    (hx : x.obtained fileAt = some y) (as : List Action) : x.writes fileAt as = none := by
  cases x <;> first | rfl | simp [Action.obtained] at hx

theorem writes_report (as : List Action) (h : HANDLE) :
    (Action.report h).writes fileAt as = referent fileAt as h := rfl

/-- A valid handle just obtained stands for what it was obtained for. -/
theorem referent_of_last (as : List Action) {h : HANDLE} {d : Destination File}
    (hl : (as.filterMap (Action.obtained fileAt)).getLast? = some (h,d)) :
    referent fileAt as h = if h = INVALID_HANDLE_VALUE then none else some d := by
  obtain ⟨l,hl⟩ := List.getLast?_eq_some_iff.mp hl
  simp [referent,hl]

theorem reaction_eq (cs : List Call) (a : Answers) : reaction cp szDefault cs a =
    (TopLevelExceptionFilter a (globals cp szDefault cs)).2 := rfl

theorem not_opens_of_sets (pre : List Call) (h : ∀ a, c ≠ .TopLevelExceptionFilter a) :
    ¬Opens cp szDefault pre c := by
  rintro ⟨a,rfl,-⟩
  exact h a rfl

theorem noneOpens_concat : NoneOpens cp szDefault (cs ++ [c]) ↔
    NoneOpens cp szDefault cs ∧ ¬Opens cp szDefault cs c := Machine.atEach_concat

/-- Only one exception is the first to get a handle. -/
theorem first_opens_unique {q q' r r' : List Call} {c c' : Call}
    (he : q ++ c::r = q' ++ c'::r') (hn : NoneOpens cp szDefault q) (ho : Opens cp szDefault q c)
    (hn' : NoneOpens cp szDefault q') (ho' : Opens cp szDefault q' c') : q = q' := by
  rcases List.append_eq_append_iff.mp he with ⟨as,hq,hc⟩ | ⟨as,hq,hc⟩
  · cases as with
    | nil => simpa using hq.symm
    | cons x as =>
      obtain ⟨rfl,-⟩ := List.cons.inj hc
      exact absurd ho (hn' q c as hq)
  · cases as with
    | nil => simpa using hq
    | cons x as =>
      obtain ⟨rfl,-⟩ := List.cons.inj hc
      exact absurd ho' (hn q' c' as hq)

/-- The exception with answers `a`, after the calls `q`, has got the handle that is
held from then on. -/
structure Cached (cp : CodePages) (fileAt : List WCHAR → File) (szDefault : List WCHAR)
    (cs q : List Call) (a : Answers) : Prop where
  split : ∃ r, cs = q ++ .TopLevelExceptionFilter a :: r
  first : NoneOpens cp szDefault q
  opens : Opens cp szDefault q (.TopLevelExceptionFilter a)
  handle : (globals cp szDefault cs).g_hReportFile = a.openAt (asked cp szDefault q)
  own : (globals cp szDefault cs).g_bOwnReportFile = decide (asked cp szDefault q ≠ wide "-")
  obtained : ∃ d, destination fileAt (asked cp szDefault q) = some d ∧
    ((log cp szDefault cs).filterMap (Action.obtained fileAt)).getLast? =
      some (a.openAt (asked cp szDefault q),d)

theorem Cached.name_ne {q : List Call} (h : Cached cp fileAt szDefault cs q a) :
    asked cp szDefault q ≠ [] := by
  obtain ⟨a',-,hn,-⟩ := h.opens
  exact hn

theorem Cached.handle_ne {q : List Call} (h : Cached cp fileAt szDefault cs q a) :
    (globals cp szDefault cs).g_hReportFile ≠ NULL := by
  obtain ⟨a',ha,-,hh⟩ := h.opens
  obtain rfl : a = a' := by simpa using ha
  rw [h.handle]
  exact hh

/-- A call that leaves handle, flag and handles obtained alone keeps what is cached. -/
theorem Cached.concat {q : List Call} (h : Cached cp fileAt szDefault cs q a) (c : Call) :
    Cached cp fileAt szDefault (cs ++ [c]) q a := by
  obtain ⟨r,hr⟩ := h.split
  have hkeep : (globals cp szDefault (cs ++ [c])).g_hReportFile =
        (globals cp szDefault cs).g_hReportFile ∧
      (globals cp szDefault (cs ++ [c])).g_bOwnReportFile =
        (globals cp szDefault cs).g_bOwnReportFile ∧
      ((exchndl cp).emit (globals cp szDefault cs) c).filterMap (Action.obtained fileAt) = [] := by
    rw [globals_concat]
    cases c with
    | ExcHndlSetLogFileNameA name => cases name <;> exact ⟨rfl,rfl,rfl⟩
    | ExcHndlSetLogFileNameW name => cases name <;> exact ⟨rfl,rfl,rfl⟩
    | TopLevelExceptionFilter a' =>
      simp [Machine.next,Machine.emit,exchndl,TopLevelExceptionFilter,
        openReportFile_cached h.handle_ne a',h.handle_ne,Action.obtained]
  obtain ⟨hh,ho,hl⟩ := hkeep
  refine ⟨⟨r ++ [c],by simp [hr]⟩,h.first,h.opens,by rw [hh,h.handle],by rw [ho,h.own],?_⟩
  rw [log_concat,List.filterMap_append,hl,List.append_nil]
  exact h.obtained

/-- An exception that finds no handle leaves none, or is the one that fixes it. -/
theorem exception_caches (fileAt : List WCHAR → File) (hnone : NoneOpens cp szDefault cs)
    (hnull : (globals cp szDefault cs).g_hReportFile = NULL) (a : Answers) :
    (NoneOpens cp szDefault (cs ++ [.TopLevelExceptionFilter a]) ∧
      (globals cp szDefault (cs ++ [.TopLevelExceptionFilter a])).g_hReportFile = NULL) ∨
    Cached cp fileAt szDefault (cs ++ [.TopLevelExceptionFilter a]) cs a := by
  have hname := globals_name cp szDefault cs
  have hg : (globals cp szDefault (cs ++ [.TopLevelExceptionFilter a])) =
      (openReportFile a (globals cp szDefault cs)).1 := globals_concat
  by_cases hn : asked cp szDefault cs = []
  · refine .inl ⟨noneOpens_concat.mpr ⟨hnone,fun ⟨_,_,hne,_⟩ => hne hn⟩,?_⟩
    have hm : ([] : List WCHAR) ≠ wide "-" := by decide
    rw [hg]
    simp [openReportFile,hnull,hname,hn,hm]
  · obtain ⟨d,x,hd,ho,hx,-⟩ := openReportFile_opens fileAt hnull (by rwa [hname]) a
    rw [hname] at hd ho hx
    by_cases hz : a.openAt (asked cp szDefault cs) = NULL
    · refine .inl ⟨noneOpens_concat.mpr ⟨hnone,?_⟩,by rw [hg,ho,hz]⟩
      rintro ⟨a',ha,-,hne⟩
      obtain rfl : a = a' := by simpa using ha
      exact hne hz
    · have hr : (exchndl cp).emit (globals cp szDefault cs) (.TopLevelExceptionFilter a) =
          [x,.report (a.openAt (asked cp szDefault cs))] := by
        simp [Machine.emit,exchndl,TopLevelExceptionFilter,ho,hz]
      refine .inr ⟨⟨[],rfl⟩,hnone,⟨a,rfl,hn,hz⟩,by rw [hg,ho],by rw [hg,ho],d,hd,?_⟩
      rw [log_concat,List.filterMap_append,hr]
      simp [List.filterMap_cons,hx,obtained_report]

/-- Either no exception has got a handle, or the first one that has fixed it. -/
theorem null_or_cached (cp : CodePages) (fileAt : List WCHAR → File) (szDefault : List WCHAR)
    (cs : List Call) :
    (NoneOpens cp szDefault cs ∧ (globals cp szDefault cs).g_hReportFile = NULL) ∨
      ∃ q a, Cached cp fileAt szDefault cs q a := by
  induction cs using List.reverseRecOn with
  | nil => exact .inl ⟨Machine.atEach_nil _,rfl⟩
  | append_singleton cs c ih =>
    rcases ih with ⟨hnone,hnull⟩ | ⟨q,a,hc⟩
    · cases c with
      | ExcHndlSetLogFileNameA name =>
        refine .inl ⟨noneOpens_concat.mpr ⟨hnone,not_opens_of_sets cs (by simp)⟩,?_⟩
        rw [globals_concat]
        cases name <;> exact hnull
      | ExcHndlSetLogFileNameW name =>
        refine .inl ⟨noneOpens_concat.mpr ⟨hnone,not_opens_of_sets cs (by simp)⟩,?_⟩
        rw [globals_concat]
        cases name <;> exact hnull
      | TopLevelExceptionFilter a =>
        exact (exception_caches fileAt hnone hnull a).imp_right fun hc => ⟨cs,a,hc⟩
    · exact .inr ⟨q,a,hc.concat c⟩

/-- With a handle held, an exception only writes its report. -/
theorem Cached.reaction {q : List Call} (h : Cached cp fileAt szDefault cs q a) (a' : Answers) :
    reaction cp szDefault cs a' = [.report (a.openAt (asked cp szDefault q))] := by
  have hh := h.handle_ne
  rw [h.handle] at hh
  simp [ReportDestination.reaction,Machine.emit,exchndl,TopLevelExceptionFilter,
    openReportFile_cached h.handle_ne a',h.handle,hh]

/-- The report goes where the first exception that got a handle was asked to write. -/
theorem Cached.writtenTo {q : List Call} (h : Cached cp fileAt szDefault cs q a)
    (hv : a.openAt (asked cp szDefault q) ≠ INVALID_HANDLE_VALUE) (a' : Answers) :
    writtenTo cp fileAt szDefault cs a' =
      (destination fileAt (asked cp szDefault q)).toList := by
  obtain ⟨d,hd,hl⟩ := h.obtained
  have hl' := referent_of_last
    (log cp szDefault cs ++ [.report (a.openAt (asked cp szDefault q))])
    (by simpa [List.filterMap_append,List.filterMap_cons,obtained_report] using hl)
  simp [ReportDestination.writtenTo,h.reaction a',writes_report,hl',hv,hd]

/-- An exception that finds no handle writes where it is asked to, or its open fails. -/
theorem delivered_of_null (hnull : (globals cp szDefault cs).g_hReportFile = NULL)
    (a : Answers) : Delivered cp fileAt szDefault cs a := by
  have hname := globals_name cp szDefault cs
  by_cases hn : asked cp szDefault cs = []
  · have hm : ([] : List WCHAR) ≠ wide "-" := by decide
    refine .inl ?_
    simp [writtenTo,reaction_eq,TopLevelExceptionFilter,openReportFile,hnull,hname,hn,hm,
      destination]
  · obtain ⟨d,x,hd,ho,hx,hf⟩ := openReportFile_opens fileAt hnull (by rwa [hname]) a
    rw [hname] at hd ho hx hf
    have hreact : reaction cp szDefault cs a =
        x :: if a.openAt (asked cp szDefault cs) ≠ NULL
          then [.report (a.openAt (asked cp szDefault cs))] else [] := by
      simp [reaction_eq,TopLevelExceptionFilter,ho]
    by_cases hz : a.openAt (asked cp szDefault cs) = NULL
    · exact .inr ⟨by simp [hreact,hf,hz],by simp [writtenTo,hreact,hz,writes_of_obtained hx]⟩
    · have hlast : ((log cp szDefault cs ++
          [x,.report (a.openAt (asked cp szDefault cs))]).filterMap
            (Action.obtained fileAt)).getLast? = some (a.openAt (asked cp szDefault cs),d) := by
        simp [List.filterMap_append,List.filterMap_cons,hx,obtained_report]
      have hl := referent_of_last _ hlast
      rw [if_pos hz] at hreact
      by_cases hv : a.openAt (asked cp szDefault cs) = INVALID_HANDLE_VALUE
      · rw [if_pos hv] at hl
        exact .inr ⟨by simp [hreact,hf,hv],
          by simp [writtenTo,hreact,writes_of_obtained hx,writes_report,hl]⟩
      · rw [if_neg hv] at hl
        exact .inl (by simp [writtenTo,hreact,writes_of_obtained hx,writes_report,hl,hd])

theorem emit_closeHandle (g : Globals) (c : Call) (h : HANDLE) :
    .CloseHandle h ∉ (exchndl cp).emit g c := by
  cases c with
  | ExcHndlSetLogFileNameA name =>
    cases name <;> simp [Machine.emit,exchndl,ExcHndlSetLogFileNameA,invalidLogName]
  | ExcHndlSetLogFileNameW name =>
    cases name <;> simp [Machine.emit,exchndl,ExcHndlSetLogFileNameW,invalidLogName]
  | TopLevelExceptionFilter a =>
    simp only [Machine.emit,exchndl,TopLevelExceptionFilter,openReportFile]
    repeat' split
    all_goals simp

/-- Nothing is closed before the DLL is unloaded. -/
theorem log_closeHandle (cs : List Call) (h : HANDLE) : .CloseHandle h ∉ log cp szDefault cs := by
  induction cs using List.reverseRecOn with
  | nil => exact List.not_mem_nil
  | append_singleton cs c ih =>
    rw [log_concat,List.mem_append,not_or]
    exact ⟨ih,emit_closeHandle _ c h⟩

/-- A handle the DLL takes for its own was obtained from `CreateFileW`. -/
theorem Cached.created {q : List Call} (h : Cached cp fileAt szDefault cs q a)
    (hown : (globals cp szDefault cs).g_bOwnReportFile = true) :
    ∃ name, .CreateFileW name (globals cp szDefault cs).g_hReportFile ∈ log cp szDefault cs := by
  obtain ⟨d,hd,hl⟩ := h.obtained
  have hm : asked cp szDefault q ≠ wide "-" := by simpa [h.own] using hown
  obtain ⟨x,hx,hxo⟩ := List.mem_filterMap.mp (List.mem_of_getLast? hl)
  rw [h.handle]
  cases x with
  | CreateFileW name r =>
    obtain ⟨rfl,-⟩ : r = a.openAt (asked cp szDefault q) ∧ _ := by
      simpa [Action.obtained] using hxo
    exact ⟨name,hx⟩
  | GetStdHandle r =>
    have hdd : Destination.stdErr = d := by
      have hh : r = a.openAt (asked cp szDefault q) ∧ Destination.stdErr = d := by
        simpa [Action.obtained] using hxo
      exact hh.2
    simp [destination,hm,h.name_ne,← hdd] at hd
  | OutputDebug | report | CloseHandle => simp [Action.obtained] at hxo

theorem not_noneOpens {q r : List Call} (hs : cs = q ++ c::r) (ho : Opens cp szDefault q c) :
    ¬NoneOpens cp szDefault cs := fun hn => hn q c r hs ho

/-- The cached handle is valid once destinations are kept. -/
theorem Cached.valid {post q : List Call} (hc : Cached cp fileAt szDefault pre q a)
    (hk : KeepsDestination cp fileAt szDefault (pre ++ post)) :
    a.openAt (asked cp szDefault q) ≠ INVALID_HANDLE_VALUE := by
  obtain ⟨r,hr⟩ := hc.split
  exact (hk q _ (r ++ post) (by simp [hr]) a rfl).1 hc.first hc.name_ne

theorem keeps_of_reports (h : ReportsWhereAsked cp fileAt szDefault cs) :
    KeepsDestination cp fileAt szDefault cs := by
  obtain ⟨hdel,hrem,-⟩ := h
  rintro pre c post hs a rfl
  have hcs : cs = (pre ++ [.TopLevelExceptionFilter a]) ++ post := by simp [hs]
  have hvalid := hrem pre _ hs
  rcases null_or_cached cp fileAt szDefault pre with ⟨hnone,hnull⟩ | ⟨q,a',hc⟩
  · refine ⟨fun _ hne hinv => ?_,fun q c' r hq _ ho => absurd hnone (not_noneOpens hq ho)⟩
    rcases exception_caches fileAt hnone hnull a with ⟨hn',-⟩ | hc
    · refine hn' pre _ [] rfl ⟨a,rfl,hne,?_⟩
      rw [hinv]
      decide
    · exact hrem _ post hcs (hc.handle.trans hinv)
  · obtain ⟨r,hr⟩ := hc.split
    refine ⟨fun hnone => absurd hnone (not_noneOpens hr hc.opens),fun q' c' r' hq hn ho => ?_⟩
    obtain rfl : q = q' := first_opens_unique (hr.symm.trans hq) hc.first hc.opens hn ho
    rw [hc.handle] at hvalid
    rcases hdel pre _ post hs a rfl with hw | ⟨hf,-⟩
    · obtain ⟨d,hd,-⟩ := hc.obtained
      rw [hc.writtenTo hvalid,hd] at hw
      rw [hd]
      exact (Option.toList_eq_singleton_iff.mp hw.symm).symm
    · simp [hc.reaction,Action.openFails] at hf

/-- Only a handle of the DLL's own is closed, while destinations are kept. -/
theorem closed_handle {post : List Call} {h : HANDLE}
    (hk : KeepsDestination cp fileAt szDefault (pre ++ post))
    (hmem : .CloseHandle h ∈ (Cleanup (globals cp szDefault pre)).2) :
    h ≠ INVALID_HANDLE_VALUE ∧ ∃ name, .CreateFileW name h ∈ log cp szDefault pre := by
  simp only [Cleanup] at hmem
  rcases null_or_cached cp fileAt szDefault pre with ⟨-,hnull⟩ | ⟨q,a',hc⟩
  · simp [hnull] at hmem
  · by_cases hown : (globals cp szDefault pre).g_bOwnReportFile = true
    · obtain rfl : h = (globals cp szDefault pre).g_hReportFile := by
        simpa [hc.handle_ne,hown] using hmem
      refine ⟨?_,hc.created hown⟩
      rw [hc.handle]
      exact hc.valid hk
    · simp [hc.handle_ne,hown] at hmem

theorem reports_of_keeps (hk : KeepsDestination cp fileAt szDefault cs) :
    ReportsWhereAsked cp fileAt szDefault cs := by
  refine ⟨fun pre c post hs a hca => ?_,fun pre post hs => ?_,fun pre post hs h hmem => ?_⟩
  · rcases null_or_cached cp fileAt szDefault pre with ⟨-,hnull⟩ | ⟨q,a',hc⟩
    · exact delivered_of_null hnull a
    · obtain ⟨r,hr⟩ := hc.split
      refine .inl ?_
      rw [hc.writtenTo (hc.valid (hs ▸ hk)),(hk pre c post hs a hca).2 q _ r hr hc.first hc.opens]
  · rcases null_or_cached cp fileAt szDefault pre with ⟨-,hnull⟩ | ⟨q,a',hc⟩
    · rw [hnull]
      decide
    · rw [hc.handle]
      exact hc.valid (hs ▸ hk)
  · exact closed_handle (hs ▸ hk) ((List.mem_append.mp hmem).resolve_left (log_closeHandle pre h))

end Proofs

/-- Reports go where the caller last asked, failed opens are forgotten and only own
handles are closed exactly when the first handle obtained is valid and no exception
after it finds a name of another destination. -/
theorem reports_where_asked_iff (cs : List Call) :
    ReportsWhereAsked cp fileAt szDefault cs ↔ KeepsDestination cp fileAt szDefault cs :=
  ⟨keeps_of_reports,reports_of_keeps⟩

/-- Code pages that agree on the first 256 characters. -/
def latin1 : CodePages :=
  ⟨(·.map UInt8.toUInt16),(·.map UInt8.toUInt16),(·.map UInt16.toUInt8)⟩

/-- The name is changed after a first exception, and a second one occurs. -/
def renamedLog : List Call :=
  [.ExcHndlSetLogFileNameW (some (wide "a")),.TopLevelExceptionFilter ⟨fun _ => 8,NULL⟩,
    .ExcHndlSetLogFileNameW (some (wide "b")),.TopLevelExceptionFilter ⟨fun _ => 12,NULL⟩]

/-- The report file cannot be created. -/
def failedOpen : List Call := [.TopLevelExceptionFilter ⟨fun _ => INVALID_HANDLE_VALUE,NULL⟩]

/-- The second report still goes to the first file; and the result of a failed open
is kept as if it were a file. -/
theorem renamed_log_ignored :
    ¬ReportsWhereAsked latin1 id [] renamedLog ∧
      ¬ReportsWhereAsked latin1 id (wide "c") failedOpen := by
  constructor
  · intro h
    have hd : Delivered latin1 id [] (renamedLog.take 3) ⟨fun _ => 12,NULL⟩ :=
      h.delivered _ _ [] rfl _ rfl
    revert hd
    simp only [Delivered]
    decide
  · intro h
    exact h.notRemembered failedOpen [] rfl rfl

end ReportDestination
end DrMingw
