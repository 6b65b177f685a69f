import DrMingw.CStrings
import DrMingw.DbgHelpFallback

/-! Undecoration of names: by the demangler or by `DbgHelp`, in the wide and in the ANSI
entry point, and what the return value says about the buffer. A buffer is the memory from
its start on, the uninitialised ones of the stack included. -/
namespace DrMingw

section Contract

variable {C : Type} [Zero C] [DecidableEq C]

/-- A return value other than 0 is the length of the string, which ends in the buffer. -/
def ObeysContract (UndecoratedLength : DWORD) (r : DWORD × List C) : Prop :=
  r.1 ≠ 0 → 0 ∈ r.2.take UndecoratedLength.toNat ∧ (cstr r.2).length = r.1.toNat

/-- A conversion of as many characters as are told, whose result need not end with a
NUL; 0 when it does not fit. -/
def convertCounted (s : List C) (n : ℕ) (buf : List C) : ℕ × List C :=
  if n = 0 then (s.length,buf)
  else if s.length ≤ n then (s.length,s ++ buf.drop s.length)
  else (0,s.take n ++ buf.drop n)

end Contract

/-- What is documented of the conversions and of the demangler: they make no NUL, and a
character of one or two units takes a byte at least. -/
structure Environment.KeepsStrings (e : Environment) : Prop where
  ansiToWide : ∀ s, 0 ∉ s → 0 ∉ e.codePages.ansiToWide s
  utf8ToWide : ∀ s, 0 ∉ s → 0 ∉ e.codePages.utf8ToWide s
  wideToAnsi : ∀ s, 0 ∉ s → 0 ∉ e.codePages.wideToAnsi s
  demangled : ∀ s options D, e.cplus_demangle_v3 s options = some D → 0 ∉ D
  length : ∀ s, s.length ≤ 2 * (e.codePages.wideToAnsi s).length

/-- What undecoration takes from the system. The function of `DbgHelp` obeys its contract. -/
structure Undecorator where
  /-- `WideCharToMultiByte` with `CP_UTF8`. -/
  wideToUtf8 : List WCHAR → List CHAR
  UnDecorateSymbolNameW : List WCHAR → List WCHAR → DWORD → DWORD → DWORD × List WCHAR
  contract : ∀ DecoratedName UnDecoratedName UndecoratedLength Flags,
    ObeysContract UndecoratedLength
      (UnDecorateSymbolNameW DecoratedName UnDecoratedName UndecoratedLength Flags)

/-- The local arrays, before they are written to. -/
structure UndecorationLocals where
  DecoratedNameA : List CHAR
  DecoratedNameW : List WCHAR
  UnDecoratedNameW : List WCHAR

variable (e : Environment) (u : Undecorator) (l : UndecorationLocals)

/-- The name the demangler reads: the name in UTF-8, or its first 1024 bytes and the
stack behind them. -/
def demanglerName (DecoratedName : List WCHAR) : List CHAR :=
  cstr (convertInto (u.wideToUtf8 DecoratedName) 1024 l.DecoratedNameA).2

/-- Return value and buffer. The conversion counts the NUL. -/
def MgwUnDecorateSymbolNameW (DecoratedName UnDecoratedName : List WCHAR)
    (UndecoratedLength Flags : DWORD) : DWORD × List WCHAR :=
  match demangle e.toLibraries (demanglerName u l DecoratedName) Flags with
  | some output_buffer =>
    let r := convertSized (convertInto (e.codePages.utf8ToWide output_buffer)) UndecoratedLength
      UnDecoratedName
    (UInt32.ofNat r.1,r.2)
  | none => u.UnDecorateSymbolNameW DecoratedName UnDecoratedName UndecoratedLength Flags

/-- The wide name the ANSI entry point passes on. -/
def passedName (DecoratedName : List CHAR) : List WCHAR :=
  cstr (convertInto (e.codePages.ansiToWide DecoratedName) 1024 l.DecoratedNameW).2

/-- The ANSI form of wide characters, of which the last one can be a NUL. -/
def ansiCharacters (s : List WCHAR) : List CHAR :=
  e.codePages.wideToAnsi (cstr s) ++ if 0 ∈ s then [0] else []

/-- The characters converted are as many as the wide entry point returns; none at all is
an error. -/
def MgwUnDecorateSymbolName (DecoratedName UnDecoratedName : List CHAR)
    (UndecoratedLength Flags : DWORD) : DWORD × List CHAR :=
  let w := MgwUnDecorateSymbolNameW e u l (passedName e l DecoratedName) l.UnDecoratedNameW 1024 Flags
  if w.1 = 0 then (0,UnDecoratedName)
  else
    let r := convertSized (convertCounted (ansiCharacters e (w.2.take w.1.toNat)))
      UndecoratedLength UnDecoratedName
    (UInt32.ofNat r.1,r.2)

/-- The demangled form does not fit the buffer, if the name is demangled at all, or the
length is negative as an `int`. -/
def WideKept (DecoratedName : List WCHAR) (UndecoratedLength Flags : DWORD) : Prop :=
  ∀ D ∈ demangle e.toLibraries (demanglerName u l DecoratedName) Flags,
    2^31 ≤ UndecoratedLength ∨ UndecoratedLength.toNat ≤ (e.codePages.utf8ToWide D).length

/-- What `DbgHelp` makes of the name in the local buffer of the ANSI entry point. -/
def dbgHelpName (DecoratedName : List CHAR) (Flags : DWORD) : DWORD × List WCHAR :=
  u.UnDecorateSymbolNameW (passedName e l DecoratedName) l.UnDecoratedNameW 1024 Flags

/-- The undecorated name in ANSI. -/
def undecoratedName (DecoratedName : List CHAR) (Flags : DWORD) : List CHAR :=
  match demangle e.toLibraries (demanglerName u l (passedName e l DecoratedName)) Flags with
  | some D => e.codePages.wideToAnsi (cstr (e.codePages.utf8ToWide D))
  | none => e.codePages.wideToAnsi (cstr (dbgHelpName e u l DecoratedName Flags).2)

/-- The length is negative as an `int`, or a demangled name does not fit one of the buffers,
with its NUL. What `DbgHelp` makes of the name is nothing, or does not fit. -/
def UndecorationFails (DecoratedName : List CHAR) (UndecoratedLength Flags : DWORD) : Prop :=
  2^31 ≤ UndecoratedLength ∨
  match demangle e.toLibraries (demanglerName u l (passedName e l DecoratedName)) Flags with
  | some D => 1024 ≤ (e.codePages.utf8ToWide D).length ∨
    UndecoratedLength.toNat ≤ (undecoratedName e u l DecoratedName Flags).length
  | none => (dbgHelpName e u l DecoratedName Flags).1 = 0 ∨
    undecoratedName e u l DecoratedName Flags = [] ∨
    UndecoratedLength.toNat < (undecoratedName e u l DecoratedName Flags).length

/-- Undecoration fails, or `DbgHelp` does it and finds a NUL behind its place in the
buffer. -/
def AnsiKept (DecoratedName UnDecoratedName : List CHAR) (UndecoratedLength Flags : DWORD) : Prop :=
  UndecorationFails e u l DecoratedName UndecoratedLength Flags ∨
    demangle e.toLibraries (demanglerName u l (passedName e l DecoratedName)) Flags = none ∧
    (undecoratedName e u l DecoratedName Flags).length < UndecoratedLength.toNat ∧
    UnDecoratedName[(undecoratedName e u l DecoratedName Flags).length]? = some 0

section Contract

variable {C : Type} [Zero C] [DecidableEq C] {s buf : List C} {n : DWORD} {k : ℕ}

theorem toNat_ne_zero (h : n ≠ 0) : n.toNat ≠ 0 := fun hz => h (UInt32.toNat_inj.mp hz)

theorem toNat_ofNat_of_le (h : k ≤ n.toNat) : (UInt32.ofNat k).toNat = k := by
  have hlt := n.toNat_lt
  exact UInt32.toNat_ofNat_of_lt' (by simp only [UInt32.size]; omega)

theorem ofNat_succ_ne_zero (h : k + 1 ≤ n.toNat) : UInt32.ofNat (k + 1) ≠ 0 := by
  rw [ne_eq,← UInt32.toNat_inj,toNat_ofNat_of_le h]
  exact k.succ_ne_zero

/-- Nothing is promised of a buffer that the conversion did not fill in. -/
theorem obeysContract_zero (buf : List C) : ObeysContract n (UInt32.ofNat 0,buf) :=
  fun h => absurd rfl h

/-- With its NUL counted a string is one too long. -/
theorem not_obeysContract_succ (h : k + 1 ≤ n.toNat) (hbuf : (cstr buf).length ≤ k) :
    ¬ObeysContract n (UInt32.ofNat (k + 1),buf) := by
  intro hc
  have hlen := (hc (ofNat_succ_ne_zero h)).2
  simp only [toNat_ofNat_of_le h] at hlen
  omega

theorem cstr_append_zero_length_le (s rest : List C) :
    (cstr (s ++ 0::rest)).length ≤ s.length := by
  rw [cstr_append,cstr_cons,if_pos rfl]
  split
  · exact (cstr_prefix_self s).length_le
  · simp

theorem convertInto_contract (hn : n ≠ 0) :
    ObeysContract n (UInt32.ofNat (convertInto s n.toNat buf).1,(convertInto s n.toNat buf).2) ↔
      n.toNat ≤ s.length := by
  by_cases hfit : s.length < n.toNat
  · rw [convertInto_of_lt hfit]
    exact iff_of_false (not_obeysContract_succ hfit (cstr_append_zero_length_le _ _)) (by omega)
  · have hfull := Nat.le_of_not_lt hfit
    rw [convertInto_of_le (toNat_ne_zero hn) hfull]
    exact iff_of_true (obeysContract_zero _) hfull

theorem convertSized_contract (hn : n ≠ 0) :
    ObeysContract n (UInt32.ofNat (convertSized (convertInto s) n buf).1,
        (convertSized (convertInto s) n buf).2) ↔ 2^31 ≤ n ∨ n.toNat ≤ s.length := by
  by_cases hint : n < 2^31
  · rw [convertSized_of_lt hint,or_iff_right (UInt32.not_le.mpr hint)]
    exact convertInto_contract hn
  · have hneg := UInt32.not_lt.mp hint
    rw [convertSized_of_le hneg]
    exact iff_of_true (obeysContract_zero _) (.inl hneg)

/-- Characters without a NUL are a string only if the buffer has one behind their place. -/
theorem counted_contract (hs : (0 : C) ∉ s) (hle : s.length ≤ n.toNat) (hne : s ≠ []) :
    ObeysContract n (UInt32.ofNat s.length,s ++ buf.drop s.length) ↔
      s.length < n.toNat ∧ buf[s.length]? = some 0 := by
  have hret := toNat_ofNat_of_le hle
  have hzero : UInt32.ofNat s.length ≠ 0 := by
    rw [ne_eq,← UInt32.toNat_inj,hret]
    exact fun h => hne (List.length_eq_zero_iff.mp h)
  have hsn : (0 : C) ∉ s.take n.toNat := fun h => hs (List.mem_of_mem_take h)
  rw [ObeysContract]
  simp only [ne_eq,hzero,not_false_eq_true,true_implies]
  rw [hret,cstr_append_of_notMem hs,List.take_append,List.mem_append,or_iff_right hsn,
    List.length_append]
  cases hrest : buf.drop s.length with
  | nil =>
    have hnone : buf[s.length]? = none := List.getElem?_eq_none (List.drop_eq_nil_iff.mp hrest)
    simp [hnone]
  | cons c rest =>
    have hat : buf[s.length]? = some c := by rw [← List.head?_drop,hrest,List.head?_cons]
    rw [hat,cstr_cons]
    by_cases hc : c = 0
    · subst hc
      cases hroom : n.toNat - s.length with
      | zero => simp; omega
      | succ k => simp; omega
    · simp [hc]

end Contract

variable {e u l} {DecoratedName UnDecoratedName : List WCHAR} {Name buf : List CHAR}
  {UndecoratedLength Flags : DWORD} {s : List WCHAR}

theorem MgwUnDecorateSymbolNameW_demangled {D : List CHAR}
    (hD : demangle e.toLibraries (demanglerName u l DecoratedName) Flags = some D)
    (UnDecoratedName : List WCHAR) (UndecoratedLength : DWORD) :
    MgwUnDecorateSymbolNameW e u l DecoratedName UnDecoratedName UndecoratedLength Flags =
      (UInt32.ofNat (convertSized (convertInto (e.codePages.utf8ToWide D)) UndecoratedLength
          UnDecoratedName).1,
        (convertSized (convertInto (e.codePages.utf8ToWide D)) UndecoratedLength
          UnDecoratedName).2) := by
  rw [MgwUnDecorateSymbolNameW,hD]

theorem MgwUnDecorateSymbolNameW_none
    (hD : demangle e.toLibraries (demanglerName u l DecoratedName) Flags = none)
    (UnDecoratedName : List WCHAR) (UndecoratedLength : DWORD) :
    MgwUnDecorateSymbolNameW e u l DecoratedName UnDecoratedName UndecoratedLength Flags =
      u.UnDecorateSymbolNameW DecoratedName UnDecoratedName UndecoratedLength Flags := by
  rw [MgwUnDecorateSymbolNameW,hD]

theorem undecorateW_contract_iff (hn : UndecoratedLength ≠ 0) :
    ObeysContract UndecoratedLength
        (MgwUnDecorateSymbolNameW e u l DecoratedName UnDecoratedName UndecoratedLength Flags) ↔
      WideKept e u l DecoratedName UndecoratedLength Flags := by
  rw [WideKept]
  cases hD : demangle e.toLibraries (demanglerName u l DecoratedName) Flags with
  | some D =>
    rw [MgwUnDecorateSymbolNameW_demangled hD]
    simp only [Option.mem_some_iff,forall_eq']
    exact convertSized_contract hn
  | none =>
    rw [MgwUnDecorateSymbolNameW_none hD]
    exact iff_of_true (u.contract _ _ _ _) (by simp)

/-- The characters counted by a conversion are the string and its NUL. -/
theorem ansiCharacters_converted (s rest : List WCHAR) :
    ansiCharacters e ((s ++ 0::rest).take (s.length + 1)) = e.codePages.wideToAnsi (cstr s) ++ [0] := by
  have htake : (s ++ 0::rest).take (s.length + 1) = s ++ [0] := by
    rw [List.take_append,List.take_of_length_le (by omega),Nat.add_sub_cancel_left]
    rfl
  rw [htake,ansiCharacters,if_pos (by simp),cstr_append]
  split
  · rfl
  · next hz => rw [cstr_of_notMem hz,cstr_cons,if_pos rfl,List.append_nil]

/-- The characters that `DbgHelp` counts are those of its string. -/
theorem ansiCharacters_counted {r : DWORD × List WCHAR} (h : ObeysContract 1024 r) (h₀ : r.1 ≠ 0) :
    ansiCharacters e (r.2.take r.1.toNat) = e.codePages.wideToAnsi (cstr r.2) := by
  have htake : r.2.take r.1.toNat = cstr r.2 := by
    rw [← (h h₀).2]
    exact (List.prefix_iff_eq_take.mp (cstr_prefix_self r.2)).symm
  rw [htake,ansiCharacters,if_neg (zero_notMem_cstr r.2),List.append_nil,
    cstr_of_notMem (zero_notMem_cstr r.2)]

/-- When the wide entry point fails, nothing is converted. -/
theorem MgwUnDecorateSymbolName_zero {w : DWORD × List WCHAR}
    (hw : MgwUnDecorateSymbolNameW e u l (passedName e l Name) l.UnDecoratedNameW 1024 Flags = w)
    (h₀ : w.1 = 0) : MgwUnDecorateSymbolName e u l Name buf UndecoratedLength Flags = (0,buf) := by
  subst hw
  exact if_pos h₀

/-- A length that is negative as an `int` makes the last conversion fail, if it comes to it. -/
theorem MgwUnDecorateSymbolName_negative (hneg : 2^31 ≤ UndecoratedLength) :
    MgwUnDecorateSymbolName e u l Name buf UndecoratedLength Flags = (0,buf) := by
  simp only [MgwUnDecorateSymbolName,convertSized_of_le hneg]
  exact ite_self _

theorem MgwUnDecorateSymbolName_succ {w : DWORD × List WCHAR}
    (hw : MgwUnDecorateSymbolNameW e u l (passedName e l Name) l.UnDecoratedNameW 1024 Flags = w)
    (h₀ : w.1 ≠ 0) (hint : UndecoratedLength < 2^31) :
    MgwUnDecorateSymbolName e u l Name buf UndecoratedLength Flags =
      (UInt32.ofNat
          (convertCounted (ansiCharacters e (w.2.take w.1.toNat)) UndecoratedLength.toNat buf).1,
        (convertCounted (ansiCharacters e (w.2.take w.1.toNat)) UndecoratedLength.toNat buf).2) := by
  subst hw
  simp only [MgwUnDecorateSymbolName,convertSized_of_lt hint]
  exact if_neg h₀

/-- What the wide entry point leaves in the local array of 1024 characters. -/
theorem localW_demangled {D : List CHAR}
    (hD : demangle e.toLibraries (demanglerName u l (passedName e l Name)) Flags = some D) :
    MgwUnDecorateSymbolNameW e u l (passedName e l Name) l.UnDecoratedNameW 1024 Flags =
      (UInt32.ofNat (convertInto (e.codePages.utf8ToWide D) 1024 l.UnDecoratedNameW).1,
        (convertInto (e.codePages.utf8ToWide D) 1024 l.UnDecoratedNameW).2) :=
  MgwUnDecorateSymbolNameW_demangled hD _ _

theorem localW_none
    (hD : demangle e.toLibraries (demanglerName u l (passedName e l Name)) Flags = none) :
    MgwUnDecorateSymbolNameW e u l (passedName e l Name) l.UnDecoratedNameW 1024 Flags =
      dbgHelpName e u l Name Flags := MgwUnDecorateSymbolNameW_none hD _ _

theorem dbgHelpName_contract : ObeysContract 1024 (dbgHelpName e u l Name Flags) :=
  u.contract _ _ _ _

theorem undecorate_fails (hn : UndecoratedLength ≠ 0)
    (h : UndecorationFails e u l Name UndecoratedLength Flags) (buf : List CHAR) :
    (MgwUnDecorateSymbolName e u l Name buf UndecoratedLength Flags).1 = 0 := by
  by_cases hneg : 2^31 ≤ UndecoratedLength
  · rw [MgwUnDecorateSymbolName_negative hneg]
  have hint := UInt32.not_le.mp hneg
  have hpos := toNat_ne_zero hn
  simp only [UndecorationFails,undecoratedName,hneg,false_or] at h
  cases hD : demangle e.toLibraries (demanglerName u l (passedName e l Name)) Flags with
  | some D =>
    simp only [hD] at h
    have hw := localW_demangled hD
    by_cases hfull : 1024 ≤ (e.codePages.utf8ToWide D).length
    · rw [convertInto_of_le (by decide) hfull] at hw
      rw [MgwUnDecorateSymbolName_zero hw rfl]
    · have hfit := Nat.lt_of_not_le hfull
      have hlong := h.resolve_left hfull
      rw [convertInto_of_lt hfit] at hw
      rw [MgwUnDecorateSymbolName_succ hw (ofNat_succ_ne_zero (n:=1024) hfit) hint]
      dsimp only
      rw [toNat_ofNat_of_le (n:=1024) hfit,ansiCharacters_converted,convertCounted,if_neg hpos,
        if_neg (by simp; omega)]
      rfl
  | none =>
    simp only [hD] at h
    have hw := localW_none hD
    by_cases h₀ : (dbgHelpName e u l Name Flags).1 = 0
    · rw [MgwUnDecorateSymbolName_zero hw h₀]
    · rw [MgwUnDecorateSymbolName_succ hw h₀ hint,ansiCharacters_counted dbgHelpName_contract h₀,
        convertCounted,if_neg hpos]
      rcases h.resolve_left h₀ with hempty | hlong
      · rw [hempty]
        rfl
      · rw [if_neg (Nat.not_le_of_lt hlong)]
        rfl

/-- A demangled name is in the buffer with its NUL, and that is counted. -/
theorem undecorate_demangled {D : List CHAR}
    (h : ¬UndecorationFails e u l Name UndecoratedLength Flags)
    (hD : demangle e.toLibraries (demanglerName u l (passedName e l Name)) Flags = some D)
    (buf : List CHAR) :
    (undecoratedName e u l Name Flags).length < UndecoratedLength.toNat ∧
      MgwUnDecorateSymbolName e u l Name buf UndecoratedLength Flags =
        (UInt32.ofNat ((undecoratedName e u l Name Flags).length + 1),
          undecoratedName e u l Name Flags ++
            0::buf.drop ((undecoratedName e u l Name Flags).length + 1)) := by
  simp only [UndecorationFails,undecoratedName,hD,not_or,not_le] at h ⊢
  obtain ⟨hneg,hfit,hlt⟩ := h
  have hint := UInt32.not_le.mp hneg
  refine ⟨hlt,?_⟩
  have hw := localW_demangled hD
  rw [convertInto_of_lt hfit] at hw
  rw [MgwUnDecorateSymbolName_succ hw (ofNat_succ_ne_zero (n:=1024) hfit) hint]
  dsimp only
  rw [toNat_ofNat_of_le (n:=1024) hfit,ansiCharacters_converted,convertCounted,if_neg (by omega),
    if_pos (by simp; omega),List.length_append,List.append_assoc]
  rfl

/-- What `DbgHelp` makes of the name is in the buffer without a NUL. -/
theorem undecorate_dbgHelp (h : ¬UndecorationFails e u l Name UndecoratedLength Flags)
    (hD : demangle e.toLibraries (demanglerName u l (passedName e l Name)) Flags = none)
    (buf : List CHAR) :
    (undecoratedName e u l Name Flags).length ≤ UndecoratedLength.toNat ∧
      undecoratedName e u l Name Flags ≠ [] ∧
      MgwUnDecorateSymbolName e u l Name buf UndecoratedLength Flags =
        (UInt32.ofNat (undecoratedName e u l Name Flags).length,undecoratedName e u l Name Flags ++
          buf.drop (undecoratedName e u l Name Flags).length) := by
  simp only [UndecorationFails,undecoratedName,hD,not_or,not_lt] at h ⊢
  obtain ⟨hneg,h₀,hne,hle⟩ := h
  have hint := UInt32.not_le.mp hneg
  refine ⟨hle,hne,?_⟩
  have hpos : UndecoratedLength.toNat ≠ 0 := fun hz =>
    hne (List.length_eq_zero_iff.mp (Nat.le_zero.mp (hz ▸ hle)))
  rw [MgwUnDecorateSymbolName_succ (localW_none hD) h₀ hint,
    ansiCharacters_counted dbgHelpName_contract h₀,convertCounted,if_neg hpos]
  exact congrArg (fun r : ℕ × List CHAR => (UInt32.ofNat r.1,r.2)) (if_pos hle)

theorem undecoratedName_notMem (hcp : ∀ s : List WCHAR, 0 ∉ s → 0 ∉ e.codePages.wideToAnsi s) :
    0 ∉ undecoratedName e u l Name Flags := by
  rw [undecoratedName]
  split
  · exact hcp _ (zero_notMem_cstr _)
  · exact hcp _ (zero_notMem_cstr _)

theorem undecorateA_contract_iff
    (hcp : ∀ s : List WCHAR, 0 ∉ s → 0 ∉ e.codePages.wideToAnsi s) (hn : UndecoratedLength ≠ 0) :
    ObeysContract UndecoratedLength
        (MgwUnDecorateSymbolName e u l Name buf UndecoratedLength Flags) ↔
      AnsiKept e u l Name buf UndecoratedLength Flags := by
  by_cases hfail : UndecorationFails e u l Name UndecoratedLength Flags
  · exact iff_of_true (fun h => absurd (undecorate_fails hn hfail buf) h) (.inl hfail)
  · rw [AnsiKept,or_iff_right hfail]
    cases hD : demangle e.toLibraries (demanglerName u l (passedName e l Name)) Flags with
    | some D =>
      obtain ⟨hlt,hr⟩ := undecorate_demangled hfail hD buf
      rw [hr]
      exact iff_of_false (not_obeysContract_succ hlt (cstr_append_zero_length_le _ _)) (by simp)
    | none =>
      obtain ⟨hle,hne,hr⟩ := undecorate_dbgHelp hfail hD buf
      rw [hr,counted_contract (undecoratedName_notMem hcp) hle hne]
      simp

/-- Both entry points obey the contract under exactly these conditions. -/
theorem undecoration_contract_iff (e : Environment) (u : Undecorator) (l : UndecorationLocals)
    (hcp : ∀ s : List WCHAR, 0 ∉ s → 0 ∉ e.codePages.wideToAnsi s) (Flags : DWORD)
    {UndecoratedLength : DWORD} (hn : UndecoratedLength ≠ 0) :
    (∀ DecoratedName UnDecoratedName, ObeysContract UndecoratedLength
        (MgwUnDecorateSymbolNameW e u l DecoratedName UnDecoratedName UndecoratedLength Flags) ↔
      WideKept e u l DecoratedName UndecoratedLength Flags) ∧
    ∀ DecoratedName UnDecoratedName, ObeysContract UndecoratedLength
        (MgwUnDecorateSymbolName e u l DecoratedName UnDecoratedName UndecoratedLength Flags) ↔
      AnsiKept e u l DecoratedName UnDecoratedName UndecoratedLength Flags :=
  ⟨fun _ _ => undecorateW_contract_iff hn,fun _ _ => undecorateA_contract_iff hcp hn⟩

/-- Names that are not decorated come back as they are, cut to the buffer. -/
def plainUndecorator : Undecorator where
  wideToUtf8 s := s.map (·.toUInt8)
  UnDecorateSymbolNameW DecoratedName UnDecoratedName UndecoratedLength _ :=
    if UndecoratedLength = 0 then (0,UnDecoratedName)
    else
      let name := (cstr DecoratedName).take (UndecoratedLength.toNat - 1)
      (UInt32.ofNat name.length,name ++ 0::UnDecoratedName.drop (name.length + 1))
  contract DecoratedName UnDecoratedName UndecoratedLength Flags := by
    by_cases hn : UndecoratedLength = 0
    · rw [if_pos hn]
      exact fun h => absurd rfl h
    · have hpos := toNat_ne_zero hn
      have hlen : ((cstr DecoratedName).take (UndecoratedLength.toNat - 1)).length <
          UndecoratedLength.toNat := by
        rw [List.length_take]
        omega
      obtain ⟨hz,hstr⟩ := holdsString_append_zero
        (fun h => zero_notMem_cstr DecoratedName (List.mem_of_mem_take h)) hlen
        (UnDecoratedName.drop (((cstr DecoratedName).take (UndecoratedLength.toNat - 1)).length + 1))
      rw [if_neg hn]
      exact fun _ => ⟨hz,by rw [hstr,toNat_ofNat_of_le hlen.le]⟩

/-- Only `_Z1fv` is a name of C++. -/
def demanglingEnvironment : Environment :=
  { bareEnvironment with
    cplus_demangle_v3 := fun mangled options =>
      if mangled = [95,90,49,102,118] then
        some (if options = DMGL_NO_OPTS then [102] else [102,40,41])
      else none }

theorem demanglingEnvironment_keepsStrings : demanglingEnvironment.KeepsStrings where
  ansiToWide := map_toUInt16_noNul
  utf8ToWide := map_toUInt16_noNul
  wideToAnsi := bareCodePages_wideToAnsi
  demangled s options D hD := by
    simp only [demanglingEnvironment,Option.ite_none_right_eq_some,Option.some_inj] at hD
    obtain ⟨-,rfl⟩ := hD
    split <;> decide
  length s := by
    change s.length ≤ 2 * (s.map _).length
    rw [List.length_map]
    omega

/-- Arrays of the stack as a debug build leaves them. -/
def filledLocals : UndecorationLocals :=
  ⟨List.replicate 1024 0xCC,List.replicate 1024 0xCCCC,List.replicate 1024 0xCCCC⟩

/-- In a buffer of zeros `main` keeps its contract. -/
theorem undecoration_contract_main :
    ObeysContract 16 (MgwUnDecorateSymbolName demanglingEnvironment plainUndecorator filledLocals
      [109,97,105,110] (List.replicate 16 0) 16 UNDNAME_NAME_ONLY) :=
  ((undecoration_contract_iff demanglingEnvironment plainUndecorator filledLocals
      bareCodePages_wideToAnsi UNDNAME_NAME_ONLY (show (16 : DWORD) ≠ 0 by decide)).2 _ _).mpr
    (.inr (by decide +kernel))

/-- `_Z1fv` is undecorated to `f`, for which 2 is returned, and `main` to 4 characters
without a NUL. -/
theorem undecoration_contract_broken :
    MgwUnDecorateSymbolNameW demanglingEnvironment plainUndecorator filledLocals
        [95,90,49,102,118] (List.replicate 16 0) 16 UNDNAME_NAME_ONLY =
      (2,102::List.replicate 15 0) ∧
    ¬ObeysContract 16 (MgwUnDecorateSymbolNameW demanglingEnvironment plainUndecorator filledLocals
      [95,90,49,102,118] (List.replicate 16 0) 16 UNDNAME_NAME_ONLY) ∧
    MgwUnDecorateSymbolName demanglingEnvironment plainUndecorator filledLocals
        [109,97,105,110] (List.replicate 16 0xCC) 16 UNDNAME_NAME_ONLY =
      (4,[109,97,105,110] ++ List.replicate 12 0xCC) ∧
    ¬ObeysContract 16 (MgwUnDecorateSymbolName demanglingEnvironment plainUndecorator filledLocals
      [109,97,105,110] (List.replicate 16 0xCC) 16 UNDNAME_NAME_ONLY) := by
  refine ⟨by decide +kernel,?_,by decide +kernel,?_⟩
  · rw [ObeysContract]
    decide +kernel
  · rw [ObeysContract]
    decide +kernel

end DrMingw
