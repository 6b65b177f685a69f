import DrMingw.ExceptionReport
import DrMingw.FilterActivations
import DrMingw.ReportDestination

/-! The report file while exceptions are raised on any number of threads. An activation
that reports opens the file, goes to its end and writes, one call after the other, and
the other activations move in between. -/
namespace DrMingw
namespace ReportFile

open FilterActivations (Move Runnable)
open ReportDestination (Globals INVALID_HANDLE_VALUE)

/-- What the filter does one by one while it reports. -/
inductive Op
  /-- `if (!g_hReportFile)`. -/
  | ifNotOpen
  | openFile
  /-- `if (g_hReportFile)`. -/
  | ifOpen
  | SetFilePointer
  | WriteFile (data : List CHAR)
  | FlushFileBuffers
  deriving DecidableEq

structure FileState (Filter : Type) where
  filter : FilterActivations.State Filter
  globals : Globals
  /-- The position of each handle. -/
  position : HANDLE → ℕ
  file : List CHAR
  /-- What is left of the report of each activation. -/
  todo : ℕ → List Op

def Valid (h : HANDLE) : Prop := h ≠ NULL ∧ h ≠ INVALID_HANDLE_VALUE

instance (h : HANDLE) : Decidable (Valid h) := inferInstanceAs (Decidable (_ ∧ _))

/-- The file once `data` is written at a position. A gap is filled with zeros. -/
def overwrite (file : List CHAR) (p : ℕ) (data : List CHAR) : List CHAR :=
  file.take p ++ List.replicate (p - file.length) 0 ++ data ++ file.drop (p + data.length)

/-- The branches below `if (!g_hReportFile)`. -/
def openFile (a : ReportDestination.Answers) (g : Globals) : Globals :=
  if g.g_szLogFileName = wide "-" then
    { g with g_hReportFile := a.GetStdHandle, g_bOwnReportFile := false }
  else if g.g_szLogFileName ≠ [] then
    { g with g_hReportFile := a.CreateFileW (cstr g.g_szLogFileName), g_bOwnReportFile := true }
  else g

/-- Up to the tests of `g_hReportFile`. -/
def opening : List Op := [.ifNotOpen,.ifOpen]

/-- The calls that put a report into the file. -/
def writing (writes : List (List CHAR)) : List Op :=
  .SetFilePointer :: (writes.map .WriteFile ++ [.FlushFileBuffers])

variable {Filter : Type}

/-- The activation `i` does `op`, with `rest` to follow. -/
def FileState.perform (a : ReportDestination.Answers) (writes : List (List CHAR)) (i : ℕ) (op : Op)
    (rest : List Op) (s : FileState Filter) : FileState Filter :=
  let h := s.globals.g_hReportFile
  match op with
  | .ifNotOpen =>
    { s with todo := Function.update s.todo i (if h = NULL then .openFile::rest else rest) }
  | .openFile =>
    let g := openFile a s.globals
    { s with
      globals := g
      position := Function.update s.position g.g_hReportFile 0
      todo := Function.update s.todo i rest }
  | .ifOpen =>
    { s with todo := Function.update s.todo i (if h = NULL then [] else writing writes) }
  | .SetFilePointer =>
    { s with
      position := if Valid h then Function.update s.position h s.file.length else s.position
      todo := Function.update s.todo i rest }
  | .WriteFile data =>
    { s with
      file := if Valid h then overwrite s.file (s.position h) data else s.file
      position := if Valid h then Function.update s.position h (s.position h + data.length)
        else s.position
      todo := Function.update s.todo i rest }
  | .FlushFileBuffers => { s with todo := Function.update s.todo i rest }

/-- The call a move makes: of an activation past the test `== 1` with a part of its
report to go. -/
def FileState.due (s : FileState Filter) : Move → Option (ℕ × Op × List Op)
  | .raise _ => none
  | .step i =>
    match s.filter.activations[i]?,s.todo i with
    | some a,op::rest =>
      if a.point = .report ∧ Runnable s.filter i a.thread then some (i,op,rest) else none
    | _,_ => none

variable (answers : ℕ → ReportDestination.Answers) (writes : ℕ → List (List CHAR))

/-- `answers` and `writes` are for the activations, in the order of their exceptions. -/
def machine : Machine (FileState Filter) Move (ℕ × Op) where
  step s m :=
    match s.due m with
    | some (i,op,rest) => (s.perform (answers i) (writes i) i op rest,[(i,op)])
    | none => ({ s with filter := FilterActivations.machine.next s.filter m },[])

variable (TopLevelExceptionFilter : Filter) (prev : Option Filter) (name : List WCHAR)
  (old : List CHAR)

/-- The handler is set up, and no report file is open. -/
def start : FileState Filter where
  filter := FilterActivations.start TopLevelExceptionFilter prev
  globals := { g_szLogFileName := name }
  position := fun _ => 0
  file := old
  todo := fun _ => opening

def after (ms : List Move) : FileState Filter :=
  (machine answers writes).after (start TopLevelExceptionFilter prev name old) ms

def calls (ms : List Move) : List (ℕ × Op) :=
  (machine answers writes).trace (start TopLevelExceptionFilter prev name old) ms

/-- In every state of the run fewer than `n` activations are between increment and
decrement. -/
def Below (n : ℕ) (ms : List Move) : Prop :=
  ∀ pre post, ms = pre ++ post → FilterActivations.inside
    (after answers writes TopLevelExceptionFilter prev name old pre).filter < n

/-- The activation is past the test `== 1`. -/
def Busy (s : FileState Filter) (i : ℕ) : Prop :=
  ∃ a, s.filter.activations[i]? = some a ∧ a.point = .report

section Proofs

variable {answers writes TopLevelExceptionFilter prev name old} {s : FileState Filter} {m : Move}
  {ms : List Move} {i : ℕ} {op : Op} {rest : List Op}

theorem overwrite_end (file data : List CHAR) : overwrite file file.length data = file ++ data := by
  simp [overwrite]

theorem openReportFile_eq {g : Globals} (h : g.g_hReportFile = NULL)
    (a : ReportDestination.Answers) :
    (ReportDestination.openReportFile a g).1 = openFile a g := by
  simp only [ReportDestination.openReportFile,openFile,h,if_true]
  split
  · rfl
  · split
    · rfl
    · rfl

theorem due_eq_some (h : s.due m = some (i,op,rest)) :
    m = .step i ∧ Busy s i ∧ s.todo i = op::rest := by
  cases m with
  | raise thread => cases h
  | step j =>
    simp only [FileState.due] at h
    split at h
    · next a op' rest' ha htodo =>
      split at h
      · next hr =>
        cases h
        exact ⟨rfl,⟨a,ha,hr.1⟩,htodo⟩
      · cases h
    · cases h

variable (answers writes) in
/-- A move makes a call of a report, or one of the filter that leaves no report
unfinished. -/
theorem next_cases (s : FileState Filter) (m : Move) :
    (∃ i op rest, m = .step i ∧ Busy s i ∧ s.todo i = op::rest ∧
      (machine answers writes).next s m = s.perform (answers i) (writes i) i op rest ∧
      (machine answers writes).emit s m = [(i,op)]) ∨
    ((machine answers writes).next s m =
        { s with filter := FilterActivations.machine.next s.filter m } ∧
      (machine answers writes).emit s m = [] ∧
      ∀ i, Busy s i → s.todo i ≠ [] → Busy ((machine answers writes).next s m) i) := by
  cases hdue : s.due m with
  | some x =>
    obtain ⟨i,op,rest⟩ := x
    obtain ⟨hm,hbusy,htodo⟩ := due_eq_some hdue
    exact .inl ⟨i,op,rest,hm,hbusy,htodo,by simp [Machine.next,machine,hdue],
      by simp [Machine.emit,machine,hdue]⟩
  | none =>
    have hnext : (machine answers writes).next s m =
        { s with filter := FilterActivations.machine.next s.filter m } := by
      simp [Machine.next,machine,hdue]
    refine .inr ⟨hnext,by simp [Machine.emit,machine,hdue],?_⟩
    rintro i ⟨a,ha,hpoint⟩ htodo
    rw [hnext]
    rcases FilterActivations.next_cases s.filter m with
      ⟨thread,-,-,hn⟩ | ⟨j,b,rfl,hb,-,hn⟩ | ⟨-,hn⟩
    · refine ⟨a,?_,hpoint⟩
      have hlt := (List.getElem?_eq_some_iff.mp ha).1
      rw [hn]
      exact (List.getElem?_append_left hlt).trans ha
    · by_cases hij : j = i
      · -- a runnable activation with a part of its report to go makes a call
        subst hij
        obtain rfl : b = a := Option.some.inj (hb.symm.trans ha)
        obtain ⟨op,rest,htodo⟩ := List.exists_cons_of_ne_nil htodo
        have hr : ¬Runnable s.filter j b.thread := by
          intro hr
          simp [FileState.due,ha,htodo,hpoint,hr] at hdue
        refine ⟨b,?_,hpoint⟩
        simp [Machine.next,FilterActivations.machine,hb,hr]
      · refine ⟨a,?_,hpoint⟩
        rw [hn]
        simpa [hij] using ha
    · refine ⟨a,?_,hpoint⟩
      rw [hn]
      exact ha

theorem filter_perform (s : FileState Filter) (a : ReportDestination.Answers)
    (w : List (List CHAR)) (i : ℕ) (op : Op) (rest : List Op) :
    (s.perform a w i op rest).filter = s.filter := by
  cases op <;> rfl

/-- The move of the filter that a move is, unless it makes a call of a report. -/
def FileState.filterMove (s : FileState Filter) (m : Move) : Option Move :=
  if (s.due m).isSome then none else some m

/-- The filter runs as if reports were made at once. -/
theorem filter_after (ms : List Move) :
    FilterActivations.after TopLevelExceptionFilter prev
        ((machine answers writes).projected FileState.filterMove
          (start TopLevelExceptionFilter prev name old) ms) =
      (after answers writes TopLevelExceptionFilter prev name old ms).filter := by
  refine Machine.after_projected FileState.filter ?_ (start TopLevelExceptionFilter prev name old) ms
  intro s m
  cases hdue : s.due m with
  | some x => simp [Machine.next,machine,hdue,FileState.filterMove,filter_perform]
  | none => simp [Machine.next,machine,hdue,FileState.filterMove]

theorem Below.filter {n : ℕ}
    (h : Below answers writes TopLevelExceptionFilter prev name old n ms) :
    FilterActivations.Below TopLevelExceptionFilter prev n
      ((machine answers writes).projected FileState.filterMove
        (start TopLevelExceptionFilter prev name old) ms) := by
  intro pre post hsplit
  obtain ⟨q,r,rfl,rfl⟩ := Machine.projected_split hsplit
  rw [filter_after]
  exact h q r rfl

theorem Below.front {n : ℕ} {post : List Move}
    (h : Below answers writes TopLevelExceptionFilter prev name old n (ms ++ post)) :
    Below answers writes TopLevelExceptionFilter prev name old n ms :=
  fun q r hs => h q (r ++ post) (by simp [hs])

/-- The file holds the reports of the activations in `order`, one behind the other, each as
far as `done` goes; only the last one can be unfinished. -/
structure Kept (writes : ℕ → List (List CHAR)) (name : List WCHAR) (old : List CHAR)
    (s : FileState Filter) (order : List ℕ) (done : ℕ → List (List CHAR)) : Prop where
  named : s.globals.g_szLogFileName = name
  nodup : order.Nodup
  file_eq : s.file = old ++ order.flatMap fun i => (done i).flatten
  handle : s.globals.g_hReportFile = NULL ∨ Valid s.globals.g_hReportFile
  started : ∀ i ∈ order, s.globals.g_hReportFile ≠ NULL ∧ ∃ rest, writes i = done i ++ rest ∧
    (s.todo i = [] ∧ rest = [] ∨
      s.todo i = rest.map .WriteFile ++ [.FlushFileBuffers] ∧ order.getLast? = some i ∧
        s.position s.globals.g_hReportFile = s.file.length)
  waiting : ∀ i ∉ order, s.todo i = opening ∨
    s.todo i = [.openFile,.ifOpen] ∧ s.globals.g_hReportFile = NULL ∨
    (s.todo i = [.ifOpen] ∨ s.todo i = writing (writes i)) ∧ s.globals.g_hReportFile ≠ NULL
  busy : ∀ i, s.todo i = [] ∨ s.todo i = opening ∨ Busy s i

variable {order : List ℕ} {done : ℕ → List (List CHAR)}

/-- A move of the filter. -/
theorem Kept.filter (h : Kept writes name old s order done) (f : FilterActivations.State Filter)
    (hbusy : ∀ i, Busy s i → s.todo i ≠ [] → Busy { s with filter := f } i) :
    Kept writes name old { s with filter := f } order done where
  named := h.named
  nodup := h.nodup
  file_eq := h.file_eq
  handle := h.handle
  started := h.started
  waiting := h.waiting
  busy i := by
    rcases h.busy i with hi | hi | hi
    · exact .inl hi
    · exact .inr (.inl hi)
    · by_cases htodo : s.todo i = []
      · exact .inl htodo
      · exact .inr (.inr (hbusy i hi htodo))

/-- Calls left to the only busy activation leave the others alone. -/
theorem busy_update (h : ∀ i, s.todo i = [] ∨ s.todo i = opening ∨ Busy s i) (hi : Busy s i)
    (l : List Op) (j : ℕ) :
    Function.update s.todo i l j = [] ∨ Function.update s.todo i l j = opening ∨ Busy s j := by
  by_cases hij : j = i
  · exact .inr (.inr (hij ▸ hi))
  · rw [Function.update_of_ne hij]
    exact h j

/-- A test of `g_hReportFile`. -/
theorem Kept.test (h : Kept writes name old s order done) (hi : Busy s i) (hnew : i ∉ order)
    {l : List Op} (hl : l = [.openFile,.ifOpen] ∧ s.globals.g_hReportFile = NULL ∨
      (l = [.ifOpen] ∨ l = writing (writes i)) ∧ s.globals.g_hReportFile ≠ NULL) :
    Kept writes name old { s with todo := Function.update s.todo i l } order done where
  named := h.named
  nodup := h.nodup
  file_eq := h.file_eq
  handle := h.handle
  started j hj := by
    have hne : j ≠ i := fun hij => hnew (hij ▸ hj)
    simpa only [Function.update_of_ne hne] using h.started j hj
  waiting j hj := by
    by_cases hij : j = i
    · subst hij
      simpa only [Function.update_self] using Or.inr hl
    · simpa only [Function.update_of_ne hij] using h.waiting j hj
  busy := busy_update h.busy hi l

theorem openFile_eq {a : ReportDestination.Answers} {g : Globals} (hname : g.g_szLogFileName ≠ []) :
    (openFile a g).g_hReportFile = a.openAt g.g_szLogFileName ∧
      (openFile a g).g_szLogFileName = g.g_szLogFileName := by
  by_cases hm : g.g_szLogFileName = wide "-"
  · simp [openFile,ReportDestination.Answers.openAt,hm]
  · simp [openFile,ReportDestination.Answers.openAt,hm,hname]

/-- The first activation to report opens the file. -/
theorem Kept.opens {a : ReportDestination.Answers} (h : Kept writes name old s order done)
    (hname : name ≠ []) (hopen : Valid (a.openAt name)) (hi : Busy s i)
    (hunique : ∀ j, Busy s j → j = i) (hnull : s.globals.g_hReportFile = NULL)
    (position : HANDLE → ℕ) :
    Kept writes name old
      { s with
        globals := openFile a s.globals
        position := position
        todo := Function.update s.todo i [.ifOpen] } order done where
  named := by
    have hne : s.globals.g_szLogFileName ≠ [] := by rwa [h.named]
    exact (openFile_eq hne).2.trans h.named
  nodup := h.nodup
  file_eq := h.file_eq
  handle := by
    have hne : s.globals.g_szLogFileName ≠ [] := by rwa [h.named]
    refine .inr ?_
    rwa [(openFile_eq hne).1,h.named]
  started j hj := absurd hnull (h.started j hj).1
  waiting j hj := by
    have hne : s.globals.g_szLogFileName ≠ [] := by rwa [h.named]
    simp only [(openFile_eq hne).1,h.named]
    by_cases hij : j = i
    · subst hij
      exact .inr (.inr ⟨.inl (Function.update_self ..),hopen.1⟩)
    · rw [Function.update_of_ne hij]
      rcases h.waiting j hj with hw | ⟨hw,-⟩ | ⟨-,hw⟩
      · exact .inl hw
      · rcases h.busy j with hb | hb | hb
        · rw [hw] at hb; cases hb
        · rw [hw] at hb; cases hb
        · exact absurd (hunique j hb) hij
      · exact absurd hnull hw
  busy := busy_update h.busy hi _

/-- A new report begins where the file ends. -/
theorem Kept.begins (h : Kept writes name old s order done) (hi : Busy s i)
    (hunique : ∀ j, Busy s j → j = i) (hnew : i ∉ order) (hvalid : Valid s.globals.g_hReportFile) :
    Kept writes name old
      { s with
        position := Function.update s.position s.globals.g_hReportFile s.file.length
        todo := Function.update s.todo i ((writes i).map .WriteFile ++ [.FlushFileBuffers]) }
      (order ++ [i]) (Function.update done i []) where
  named := h.named
  nodup := List.nodup_append.mpr ⟨h.nodup,List.nodup_singleton i,by
    rintro j hj k hk rfl
    exact hnew (List.mem_singleton.mp hk ▸ hj)⟩
  file_eq := by
    have hsame : order.flatMap (fun j => (Function.update done i [] j).flatten) =
        order.flatMap fun j => (done j).flatten := by
      refine List.flatMap_congr fun j hj => ?_
      have hne : j ≠ i := fun hij => hnew (hij ▸ hj)
      rw [Function.update_of_ne hne]
    simp [hsame,h.file_eq]
  handle := .inr hvalid
  started j hj := by
    refine ⟨hvalid.1,?_⟩
    rcases List.mem_append.mp hj with hj | hj
    · have hne : j ≠ i := fun hij => hnew (hij ▸ hj)
      obtain ⟨-,rest,hrest,hcase⟩ := h.started j hj
      refine ⟨rest,by rwa [Function.update_of_ne hne],.inl ?_⟩
      simp only [Function.update_of_ne hne]
      rcases hcase with hdone | ⟨htodo,-⟩
      · exact hdone
      · -- only `i` is busy
        rcases h.busy j with hb | hb | hb
        · rw [htodo] at hb; simp at hb
        · rw [htodo] at hb; cases rest <;> cases hb
        · exact absurd (hunique j hb) hne
    · obtain rfl := List.mem_singleton.mp hj
      exact ⟨writes j,by simp,.inr ⟨by simp,by simp,by simp⟩⟩
  waiting j hj := by
    have hne : j ≠ i := fun hij => hj (by simp [hij])
    simp only [Function.update_of_ne hne]
    exact h.waiting j fun hmem => hj (List.mem_append_left _ hmem)
  busy := busy_update h.busy hi _

/-- A report goes on where it has stopped. -/
theorem Kept.goesOn {data : List CHAR} {rest : List (List CHAR)}
    (h : Kept writes name old s order done) (hi : Busy s i) (hmem : i ∈ order)
    (hrest : writes i = done i ++ data::rest) (hlast : order.getLast? = some i)
    (hpos : s.position s.globals.g_hReportFile = s.file.length) :
    Kept writes name old
      { s with
        file := s.file ++ data
        position := Function.update s.position s.globals.g_hReportFile
          (s.position s.globals.g_hReportFile + data.length)
        todo := Function.update s.todo i (rest.map .WriteFile ++ [.FlushFileBuffers]) }
      order (Function.update done i (done i ++ [data])) where
  named := h.named
  nodup := h.nodup
  file_eq := by
    obtain ⟨front,hfront⟩ := List.getLast?_eq_some_iff.mp hlast
    have hnotin : i ∉ front := by
      intro hi
      have hnodup := h.nodup
      rw [hfront] at hnodup
      exact (List.nodup_append.mp hnodup).2.2 i hi i (List.mem_singleton_self i) rfl
    have hsame : front.flatMap (fun j => (Function.update done i (done i ++ [data]) j).flatten) =
        front.flatMap fun j => (done j).flatten := by
      refine List.flatMap_congr fun j hj => ?_
      have hne : j ≠ i := fun hij => hnotin (hij ▸ hj)
      rw [Function.update_of_ne hne]
    simp [h.file_eq,hfront,hsame]
  handle := h.handle
  started j hj := by
    obtain ⟨hopen,rest',hrest',hcase⟩ := h.started j hj
    refine ⟨hopen,?_⟩
    by_cases hij : j = i
    · subst hij
      refine ⟨rest,by simp [hrest],.inr ⟨by simp,hlast,?_⟩⟩
      simp [hpos]
    · refine ⟨rest',by rwa [Function.update_of_ne hij],.inl ?_⟩
      simp only [Function.update_of_ne hij]
      rcases hcase with hdone | ⟨-,hlast',-⟩
      · exact hdone
      · exact absurd (Option.some.inj (hlast'.symm.trans hlast)) hij
  waiting j hj := by
    have hne : j ≠ i := fun hij => hj (hij ▸ hmem)
    simp only [Function.update_of_ne hne]
    exact h.waiting j hj
  busy := busy_update h.busy hi _

/-- A report is complete. -/
theorem Kept.ends (h : Kept writes name old s order done) (hi : Busy s i) (hmem : i ∈ order)
    (hwhole : writes i = done i) :
    Kept writes name old { s with todo := Function.update s.todo i [] } order done where
  named := h.named
  nodup := h.nodup
  file_eq := h.file_eq
  handle := h.handle
  started j hj := by
    by_cases hij : j = i
    · subst hij
      exact ⟨(h.started j hj).1,[],by simp [hwhole],.inl ⟨by simp,rfl⟩⟩
    · simpa only [Function.update_of_ne hij] using h.started j hj
  waiting j hj := by
    have hne : j ≠ i := fun hij => hj (hij ▸ hmem)
    simp only [Function.update_of_ne hne]
    exact h.waiting j hj
  busy := busy_update h.busy hi _

/-- One call of the report that is being made. -/
theorem Kept.perform (h : Kept writes name old s order done) (hname : name ≠ [])
    (hopen : Valid ((answers i).openAt name)) (hi : Busy s i) (hunique : ∀ j, Busy s j → j = i)
    (htodo : s.todo i = op::rest) :
    (∃ order' done', Kept writes name old (s.perform (answers i) (writes i) i op rest) order' done') ∧
      (op = .openFile → s.globals.g_hReportFile = NULL) := by
  by_cases hmem : i ∈ order
  · obtain ⟨hnull,left,hleft,⟨hnil,-⟩ | ⟨hcase,hlast,hpos⟩⟩ := h.started i hmem
    · simp [hnil] at htodo
    · have hvalid := h.handle.resolve_left hnull
      rw [htodo] at hcase
      cases left with
      | nil =>
        obtain ⟨rfl,rfl⟩ := List.cons.inj hcase
        exact ⟨⟨_,_,h.ends hi hmem (by simpa using hleft)⟩,nofun⟩
      | cons data left =>
        rw [List.map_cons,List.cons_append] at hcase
        obtain ⟨rfl,rfl⟩ := List.cons.inj hcase
        refine ⟨⟨order,Function.update done i (done i ++ [data]),?_⟩,nofun⟩
        simpa only [FileState.perform,if_pos hvalid,hpos,overwrite_end] using
          h.goesOn hi hmem hleft hlast hpos
  · rcases h.waiting i hmem with hcase | ⟨hcase,hnull⟩ | ⟨hcase | hcase,hnull⟩
    · obtain ⟨rfl,rfl⟩ := List.cons.inj (htodo.symm.trans hcase)
      refine ⟨⟨order,done,h.test hi hmem ?_⟩,nofun⟩
      by_cases hnull : s.globals.g_hReportFile = NULL
      · exact .inl ⟨if_pos hnull,hnull⟩
      · exact .inr ⟨.inl (if_neg hnull),hnull⟩
    · obtain ⟨rfl,rfl⟩ := List.cons.inj (htodo.symm.trans hcase)
      exact ⟨⟨order,done,h.opens hname hopen hi hunique hnull _⟩,fun _ => hnull⟩
    · obtain ⟨rfl,rfl⟩ := List.cons.inj (htodo.symm.trans hcase)
      exact ⟨⟨order,done,h.test hi hmem (.inr ⟨.inr (if_neg hnull),hnull⟩)⟩,nofun⟩
    · obtain ⟨rfl,rfl⟩ := List.cons.inj (htodo.symm.trans hcase)
      have hvalid := h.handle.resolve_left hnull
      refine ⟨⟨order ++ [i],Function.update done i [],?_⟩,nofun⟩
      simpa only [FileState.perform,if_pos hvalid] using h.begins hi hunique hmem hvalid

theorem after_concat (ms : List Move) (m : Move) :
    after answers writes TopLevelExceptionFilter prev name old (ms ++ [m]) =
      (machine answers writes).next (after answers writes TopLevelExceptionFilter prev name old ms) m :=
  Machine.after_concat ..

end Proofs

end ReportFile
end DrMingw
