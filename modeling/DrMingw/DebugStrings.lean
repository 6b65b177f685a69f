import DrMingw.CStrings
import DrMingw.DebugLoop

/-! Debug strings relayed to the dump callback: out of the memory of the debuggee, and
through the formatting buffer of `lprintf`. -/
namespace DrMingw
namespace DebugLoop

/-- `_vsnwprintf` of a text into a buffer of `n` characters: the NUL is appended if there
is room for it. -/
def vsnwprintf (text : List WCHAR) (n : ℕ) (buf : List WCHAR) : List WCHAR :=
  if text.length < n then text ++ 0::buf.drop (text.length + 1) else text.take n ++ buf.drop n

/-- The memory from `szBuffer` on when `lprintf(L"%S", data)` calls back; `stack` is what it
was before, and `wide` the conversion of `%S`. -/
def lprintf_S (wide : List CHAR → List WCHAR) (stack : List WCHAR) (data : List CHAR) : List WCHAR :=
  vsnwprintf (wide data) 1024 stack

/-- The debug strings among the calls, each as the callback finds it. -/
def relayed (wide : List CHAR → List WCHAR) (stack : List WCHAR) (actions : List Action) :
    List (List WCHAR) :=
  actions.filterMap fun
    | .lprintf (.debugString data) => some (lprintf_S wide stack data)
    | _ => none

/-- `lpszBuffer` of `readProcessString`, which was `heap` before: `ReadProcessMemory` has
copied the bytes to it, all of them or those in front of a page it could not read. -/
def readProcessBuffer (succeeds : Bool) (bytes heap : List CHAR) : List CHAR :=
  let lpszBuffer := bytes ++ heap.drop bytes.length
  (if succeeds then lpszBuffer else lpszBuffer.set 0 0).set bytes.length 0

/-- The bytes read up to their first NUL, none if the memory cannot be read. -/
def debugText (a : Answers) (p : ProcessInfo) (lpDebugStringData : DWORD64)
    (nDebugStringLength : UInt16) : List CHAR :=
  ((a.ReadProcessMemory p.hProcess lpDebugStringData nDebugStringLength.toNat).map cstr).getD []

/-- One string is relayed, and whole: it ends in the buffer. -/
def RelaysWhole (wide : List CHAR → List WCHAR) (stack : List WCHAR) (actions : List Action)
    (text : List CHAR) : Prop :=
  ∃ szBuffer, relayed wide stack actions = [szBuffer] ∧ HoldsString szBuffer 1024 (wide text)

variable {wide : List CHAR → List WCHAR} {o : DebugOptions} {a : Answers} {p : ProcessInfo}
  {lpDebugStringData : DWORD64} {nDebugStringLength : UInt16}

theorem vsnwprintf_holdsString_iff {text : List WCHAR} (h : 0 ∉ text) (n : ℕ) (buf : List WCHAR) :
    HoldsString (vsnwprintf text n buf) n text ↔ text.length < n := by
  rw [vsnwprintf]
  by_cases hfit : text.length < n
  · rw [if_pos hfit]
    exact iff_of_true (holdsString_append_zero h hfit _) hfit
  · rw [if_neg hfit]
    exact iff_of_false (fun hs => not_holdsPrefix_full h (by omega) _ _ hs.holdsPrefix) hfit

/-- The buffer holds a string, empty when the read fails at any place. -/
theorem cstr_readProcessBuffer (succeeds : Bool) {bytes heap : List CHAR}
    (h : bytes.length < heap.length) : cstr (readProcessBuffer succeeds bytes heap) =
      ((if succeeds then some bytes else none).map cstr).getD [] := by
  obtain ⟨c,rest,hrest⟩ : ∃ c rest, heap.drop bytes.length = c::rest :=
    List.exists_cons_of_length_pos (by rw [List.length_drop]; omega)
  rw [readProcessBuffer,hrest]
  cases succeeds with
  | true =>
    have hset : (bytes ++ c::rest).set bytes.length 0 = bytes ++ 0::rest := by simp
    simp only [if_true,Option.map_some,Option.getD_some]
    rw [hset,cstr_append,cstr_cons,if_pos rfl]
    split
    · rfl
    · next hz => rw [List.append_nil,cstr_of_notMem hz]
  | false =>
    cases bytes with
    | nil => rfl
    | cons b bytes => rfl

/-- What the record of answers gives for a read is the string in that buffer. -/
theorem readProcessString_buffer {succeeds : Bool} {bytes heap : List CHAR} {hProcess : HANDLE}
    {nSize : ℕ} (h : bytes.length < heap.length)
    (hr : a.ReadProcessMemory hProcess lpDebugStringData nSize =
      if succeeds then some bytes else none) :
    readProcessString a hProcess lpDebugStringData nSize =
      cstr (readProcessBuffer succeeds bytes heap) := by
  rw [cstr_readProcessBuffer succeeds h,readProcessString,hr]
  cases succeeds with
  | true => rfl
  | false => rfl

theorem readProcessString_eq : readProcessString a p.hProcess lpDebugStringData
    nDebugStringLength.toNat = debugText a p lpDebugStringData nDebugStringLength := by
  rw [readProcessString,debugText]
  split
  · next h => rw [h]; rfl
  · next bytes h => rw [h]; rfl

/-- The trace of an event is no debug string. -/
theorem relayed_verbose (stack : List WCHAR) (pid tid : DWORD) (u : DebugInfo)
    (image : Option (List WCHAR)) (actions : List Action) :
    relayed wide stack (verbose o pid tid u image ++ actions) = relayed wide stack actions := by
  rw [verbose]
  split
  · rfl
  · rfl

/-- An event relays the text of its debug string. -/
theorem relayed_handle {d : Delivery}
    (hu : d.u = .OUTPUT_DEBUG_STRING lpDebugStringData nDebugStringLength)
    (ho : o.no_debug_string = false) (stack : List WCHAR) (fTerminating : Bool) (p : ProcessInfo) :
    relayed wide stack (handle o d fTerminating p).actions =
      [lprintf_S wide stack (debugText d.answers p lpDebugStringData nDebugStringLength)] := by
  simp only [handle,hu,onOutputDebugString,ho,Bool.false_eq_true,if_false]
  rw [relayed_verbose,readProcessString_eq]
  rfl

/-- A debug string is relayed whole exactly if it leaves room for a NUL in the buffer. -/
theorem debug_string_whole_iff (wide : List CHAR → List WCHAR) (hwide : ∀ s, 0 ∉ s → 0 ∉ wide s)
    (stack : List WCHAR) (o : DebugOptions) (ho : o.no_debug_string = false)
    (fTerminating : Bool) (p : ProcessInfo) (d : Delivery) {lpDebugStringData : DWORD64}
    {nDebugStringLength : UInt16}
    (hu : d.u = .OUTPUT_DEBUG_STRING lpDebugStringData nDebugStringLength) :
    RelaysWhole wide stack (handle o d fTerminating p).actions
        (debugText d.answers p lpDebugStringData nDebugStringLength) ↔
      (wide (debugText d.answers p lpDebugStringData nDebugStringLength)).length < 1024 := by
  have htext : 0 ∉ debugText d.answers p lpDebugStringData nDebugStringLength := by
    rw [debugText]
    cases d.answers.ReadProcessMemory p.hProcess lpDebugStringData nDebugStringLength.toNat with
    | none => exact List.not_mem_nil
    | some bytes => exact zero_notMem_cstr bytes
  rw [← vsnwprintf_holdsString_iff (hwide _ htext) 1024 stack,RelaysWhole,
    relayed_handle hu ho stack fTerminating p]
  simp [lprintf_S]

/-- The debuggee outputs the bytes, and a NUL. -/
def outputs (bytes : List CHAR) : Delivery where
  dwProcessId := 1
  dwThreadId := 1
  u := .OUTPUT_DEBUG_STRING 0x1000 (UInt16.ofNat (bytes.length + 1))
  answers := { ReadProcessMemory := fun _ _ nSize => some ((bytes ++ [0]).take nSize) }

theorem debug_string_whole_short :
    RelaysWhole (List.map (·.toUInt16)) (List.replicate 2048 0xCCCC)
      (handle {} (outputs [111,107]) false {}).actions [111,107] :=
  (debug_string_whole_iff (List.map (·.toUInt16)) map_toUInt16_noNul (List.replicate 2048 0xCCCC)
    {} rfl false {} (outputs [111,107]) rfl).mpr (by decide)

/-- A line of 1024 letters goes on behind the buffer. -/
theorem debug_string_overruns :
    ¬RelaysWhole (List.map (·.toUInt16)) (List.replicate 2048 0xCCCC)
      (handle {} (outputs (List.replicate 1024 97)) false {}).actions (List.replicate 1024 97) := by
  rintro ⟨szBuffer,hrelayed,hz,-⟩
  rw [relayed_handle (d:=outputs (List.replicate 1024 97)) rfl rfl] at hrelayed
  obtain rfl := List.singleton_inj.mp hrelayed
  revert hz
  decide +kernel

end DebugLoop
end DrMingw
