import DrMingw.SectionlessSymbols
import DrMingw.Undecoration

/-! The names of symbols on their way to the caller: through the local array of COFF
names, the conversion into the record, the ANSI record and the buffer of `GetSymFromAddr`.
What a copy does not initialise may hold anything. -/
namespace DrMingw
open PeImage

/-- The symbol tables of a module. -/
inductive SymbolTable
  | dwarf
  | coff

/-- A symbol found, with its name in full. -/
structure FoundSymbol where
  table : SymbolTable
  name : List CHAR
  noNul : 0 ∉ name

variable (e : Environment) (u : Undecorator) (l : UndecorationLocals) (d : DbgHelp) (f : FoundSymbol)

/-- The name as it is read: `symbol_name` takes 1024 bytes of a COFF name, and is read on
in the stack behind it if there is no NUL among them. -/
def FoundSymbol.read (stack : List CHAR) : List CHAR :=
  match f.table with
  | .dwarf => f.name
  | .coff => cstr (strncpy f.name 1024 ++ stack)

/-- DWARF names are in UTF-8, COFF names in ANSI. -/
def FoundSymbol.convert (s : List CHAR) : List WCHAR :=
  match f.table with
  | .dwarf => e.codePages.utf8ToWide s
  | .coff => e.codePages.ansiToWide s

/-- The wide name that is handed to the caller. -/
def FoundSymbol.wideName (stack : List CHAR) : List WCHAR :=
  f.convert e (reportedName e d (f.read stack))

/-- The record of an own answer of `MgwSymFromAddrW`. -/
def FoundSymbol.fill (stack : List CHAR) (Symbol : SymbolInfo WCHAR) : SymbolInfo WCHAR :=
  Symbol.setName (f.wideName e d stack)

/-- The name, demangled or not. -/
def FoundSymbol.forms : List (List WCHAR) :=
  f.convert e f.name ::
    (demangle e.toLibraries f.name UNDNAME_NAME_ONLY).toList.map (f.convert e)

def FoundSymbol.ansiForms : List (List CHAR) := (f.forms e).map e.codePages.wideToAnsi

/-- The string that `MgwSymFromAddr` converts from its local record, of whose name
`nameW` is the memory from the start on. -/
def FoundSymbol.ansiName (stack : List CHAR) (nameW : List WCHAR) : List CHAR :=
  e.codePages.wideToAnsi (cstr
    (f.fill e d stack { localSymbolW with Name := nameW }).Name)

/-- `Symbol->Name` after an own answer to `MgwSymFromAddr`. -/
def FoundSymbol.fillAnsi (stack : List CHAR) (nameW : List WCHAR) (MaxNameLen : DWORD)
    (Name : List CHAR) : List CHAR :=
  (convertSized (convertInto (f.ansiName e d stack nameW)) MaxNameLen Name).2

/-- `lpSymName` after an own answer to `GetSymFromAddr`; `heap` is the memory from
`pSymbol->Name` on. -/
def FoundSymbol.GetSymFromAddr (stack : List CHAR) (nameW : List WCHAR) (heap lpSymName : List CHAR)
    (nSize : DWORD) : List CHAR :=
  let Name := cstr (f.fillAnsi e d stack nameW nSize heap)
  if d.SymGetOptions &&& SYMOPT_UNDNAME ≠ 0 then
    strncpy Name nSize.toNat ++ lpSymName.drop nSize.toNat
  else
    let r := MgwUnDecorateSymbolName e u l Name lpSymName nSize UNDNAME_NAME_ONLY
    if r.1 = 0 then strncpy Name nSize.toNat ++ r.2.drop nSize.toNat else r.2

section

variable {C : Type} [Zero C] [DecidableEq C]

/-- The first `n` characters hold, with a NUL, one of the names or its beginning. -/
def HoldsName (names : List (List C)) (n : DWORD) (buf : List C) : Prop :=
  ∃ s ∈ names, HoldsPrefix buf n.toNat s

/-- A string fits into `n` characters and is one of the names or its beginning. -/
def NameFits (names : List (List C)) (n : DWORD) (s : List C) : Prop :=
  s.length < n.toNat ∧ ∃ t ∈ names, s <+: t

end

/-- What is said of a record filled in. -/
structure WellNamed (names : List (List WCHAR)) (Symbol : SymbolInfo WCHAR) : Prop where
  name : HoldsName names Symbol.MaxNameLen Symbol.Name
  length : Symbol.NameLen.toNat = (cstr Symbol.Name).length

/-- The wide name fits the local record, and its ANSI form the one of the caller, whose size
is not negative as an `int`. -/
def FoundSymbol.Survives (stack : List CHAR) (n : DWORD) : Prop :=
  n < 2^31 ∧ (f.wideName e d stack).length < 467 ∧
    NameFits (f.ansiForms e) n (e.codePages.wideToAnsi (f.wideName e d stack))

/-- The name in ANSI, undecorated, demangled, or as it is. -/
def FoundSymbol.undecoratedForms : List (List CHAR) :=
  undecoratedName e u l (e.codePages.wideToAnsi (f.convert e f.name)) UNDNAME_NAME_ONLY ::
    f.ansiForms e

/-- A string that the ANSI record of `GetSymFromAddr` can be read as. A name that does not fit
the local record or the one of the caller is read on in what memory holds behind it. -/
def FoundSymbol.ReadAs (stack : List CHAR) (nSize : DWORD) (Name : List CHAR) : Prop :=
  let wide := f.wideName e d stack
  ∃ behindW behind, 0 ∉ behindW ∧ 0 ∉ behind ∧
    let name := e.codePages.wideToAnsi
      (if wide.length < 467 then wide else wide.take 467 ++ behindW)
    Name = if name.length < nSize.toNat then name else name.take nSize.toNat ++ behind

/-- Undecoration fails for a name that fits, or what it makes of the name fits: as it is if
the demangler does it, and with what the buffer holds behind it if `DbgHelp` does. -/
structure FoundSymbol.Completed (Name lpSymName : List CHAR) (nSize : DWORD) : Prop where
  failed : UndecorationFails e u l Name nSize UNDNAME_NAME_ONLY →
    NameFits (f.undecoratedForms e u l) nSize Name
  demangled : ¬UndecorationFails e u l Name nSize UNDNAME_NAME_ONLY →
    demangle e.toLibraries (demanglerName u l (passedName e l Name)) UNDNAME_NAME_ONLY ≠ none →
    NameFits (f.undecoratedForms e u l) nSize (undecoratedName e u l Name UNDNAME_NAME_ONLY)
  dbgHelp : ¬UndecorationFails e u l Name nSize UNDNAME_NAME_ONLY →
    demangle e.toLibraries (demanglerName u l (passedName e l Name)) UNDNAME_NAME_ONLY = none →
    0 ∈ lpSymName.drop (undecoratedName e u l Name UNDNAME_NAME_ONLY).length ∧
      NameFits (f.undecoratedForms e u l) nSize (undecoratedName e u l Name UNDNAME_NAME_ONLY ++
        cstr (lpSymName.drop (undecoratedName e u l Name UNDNAME_NAME_ONLY).length))

variable {e u l d f} {stack heap lpSymName Name : List CHAR} {nameW : List WCHAR} {n : DWORD}

section

variable {C : Type} [Zero C] [DecidableEq C] {s : List C} (names : List (List C))

/-- What holds of one string holds of a list of them. -/
theorem holdsName_iff {buf : List C}
    (hone : ∀ t, HoldsPrefix buf n.toNat t ↔ s.length < n.toNat ∧ s <+: t) :
    HoldsName names n buf ↔ NameFits names n s := by
  constructor
  · rintro ⟨t,ht,h⟩
    exact ⟨((hone t).mp h).1,t,ht,((hone t).mp h).2⟩
  · rintro ⟨hlt,t,ht,h⟩
    exact ⟨t,ht,(hone t).mpr ⟨hlt,h⟩⟩

theorem holdsName_iff_cstr {buf : List C} :
    HoldsName names n buf ↔ 0 ∈ buf ∧ NameFits names n (cstr buf) := by
  simp only [HoldsName,HoldsPrefix,NameFits,zero_mem_take_iff]
  constructor
  · rintro ⟨t,ht,⟨hz,hlt⟩,h⟩
    exact ⟨hz,hlt,t,ht,h⟩
  · rintro ⟨hz,hlt,t,ht,h⟩
    exact ⟨t,ht,⟨hz,hlt⟩,h⟩

theorem holdsName_strncpy (hs : (0 : C) ∉ s) (rest : List C) :
    HoldsName names n (strncpy s n.toNat ++ rest) ↔ NameFits names n s :=
  holdsName_iff names (strncpy_holdsPrefix_iff hs rest)

/-- A conversion leaves one of the names if its result fits, or if it is refused and the
buffer holds one before. -/
theorem holdsName_convertSized (hs : (0 : C) ∉ s) (hn : n ≠ 0) (buf : List C) :
    HoldsName names n (convertSized (convertInto s) n buf).2 ↔
      n < 2^31 ∧ NameFits names n s ∨ 2^31 ≤ n ∧ HoldsName names n buf := by
  by_cases hint : n < 2^31
  · rw [convertSized_of_lt hint,
      holdsName_iff names (convertInto_holdsPrefix_iff hs (toNat_ne_zero hn) buf)]
    simp [hint,UInt32.not_le.mpr hint]
  · have hneg := UInt32.not_lt.mp hint
    rw [convertSized_of_le hneg]
    simp [hint,hneg]

/-- A string cut by a buffer that it does not fit does not fit the next one either. -/
theorem nameFits_cstr_convertInto (hs : (0 : C) ∉ s) (hn : n ≠ 0) (buf : List C) :
    NameFits names n (cstr (convertInto s n.toNat buf).2) ↔ NameFits names n s := by
  rw [cstr_convertInto hs (toNat_ne_zero hn)]
  split
  · rfl
  · next hlong =>
    refine iff_of_false (fun h => ?_) fun h => hlong h.1
    have hlen := h.1
    rw [List.length_append,List.length_take] at hlen
    omega

omit [Zero C] [DecidableEq C] in
/-- No string as long as the buffer fits it. -/
theorem not_nameFits_replicate (c : C) : ¬NameFits names n (List.replicate n.toNat c) :=
  fun h => absurd h.1 (by simp)

end

theorem FoundSymbol.read_noNul (f : FoundSymbol) (stack : List CHAR) : 0 ∉ f.read stack := by
  rw [read]
  split
  · exact f.noNul
  · exact zero_notMem_cstr _

theorem reportedName_noNul (he : e.KeepsStrings) {s : List CHAR} (hs : 0 ∉ s) :
    0 ∉ reportedName e d s := by
  rw [reportedName]
  split
  · cases hD : demangle e.toLibraries s UNDNAME_NAME_ONLY with
    | none => exact hs
    | some D =>
      rw [demangle] at hD
      split at hD
      · simp at hD
      · exact he.demangled _ _ _ hD
  · exact hs

theorem FoundSymbol.wideName_noNul (he : e.KeepsStrings) (f : FoundSymbol) (stack : List CHAR) :
    0 ∉ f.wideName e d stack := by
  have hread := reportedName_noNul (d:=d) he (f.read_noNul stack)
  rw [wideName,convert]
  split
  · exact he.utf8ToWide _ hread
  · exact he.ansiToWide _ hread

theorem FoundSymbol.ansiName_noNul (he : e.KeepsStrings) (f : FoundSymbol) (stack : List CHAR)
    (nameW : List WCHAR) : 0 ∉ f.ansiName e d stack nameW :=
  he.wideToAnsi _ (zero_notMem_cstr _)

theorem FoundSymbol.fill_holdsName (he : e.KeepsStrings) (f : FoundSymbol) (stack : List CHAR)
    {Symbol : SymbolInfo WCHAR} (hM : Symbol.MaxNameLen ≠ 0) (names : List (List WCHAR)) :
    HoldsName names Symbol.MaxNameLen (f.fill e d stack Symbol).Name ↔
      Symbol.MaxNameLen < 2^31 ∧ NameFits names Symbol.MaxNameLen (f.wideName e d stack) ∨
        2^31 ≤ Symbol.MaxNameLen ∧ HoldsName names Symbol.MaxNameLen Symbol.Name :=
  holdsName_convertSized names (f.wideName_noNul he stack) hM Symbol.Name

/-- The length is right only of a refused conversion, over an empty string. -/
theorem FoundSymbol.fill_wellNamed (he : e.KeepsStrings) (f : FoundSymbol) (stack : List CHAR)
    {Symbol : SymbolInfo WCHAR} (hM : Symbol.MaxNameLen ≠ 0) :
    WellNamed (f.forms e) (f.fill e d stack Symbol) ↔
      2^31 ≤ Symbol.MaxNameLen ∧ Symbol.Name.head? = some 0 := by
  have hw := f.wideName_noNul (d:=d) he stack
  have hiff := f.fill_holdsName (d:=d) he stack hM (f.forms e)
  by_cases hint : Symbol.MaxNameLen < 2^31
  · refine iff_of_false (fun h => ?_) fun h => UInt32.not_le.mpr hint h.1
    obtain ⟨-,hfit⟩ := (hiff.mp h.name).resolve_right fun h => UInt32.not_le.mpr hint h.1
    have hlen := h.length
    simp only [fill,SymbolInfo.setName,convertSized_of_lt hint,convertInto_of_lt hfit.1,
      cstr_append_zero hw,toNat_ofNat_of_le (n:=Symbol.MaxNameLen) hfit.1] at hlen
    omega
  · have hneg := UInt32.not_lt.mp hint
    have hfill : f.fill e d stack Symbol = { Symbol with NameLen := 0 } := by
      simp only [fill,SymbolInfo.setName,convertSized_of_le hneg]
      rfl
    rw [and_iff_right hneg,hfill]
    constructor
    · intro h
      obtain ⟨hz,-⟩ := (holdsName_iff_cstr _).mp h.name
      have hempty : cstr Symbol.Name = [] := List.length_eq_zero_iff.mp h.length.symm
      cases hName : Symbol.Name with
      | nil => simp [hName] at hz
      | cons c rest =>
        rw [hName,cstr_cons] at hempty
        by_cases hc : c = 0
        · simp [hc]
        · simp [hc] at hempty
    · intro h
      obtain ⟨rest,hName⟩ := List.head?_eq_some_iff.mp h
      have hempty : cstr Symbol.Name = [] := by rw [hName,cstr_cons,if_pos rfl]
      have hpos := toNat_ne_zero hM
      refine ⟨(holdsName_iff_cstr _).mpr ⟨by simp [hName],?_⟩,by simp [hempty]⟩
      rw [hempty]
      exact ⟨by simpa using Nat.pos_of_ne_zero hpos,_,List.mem_cons_self,List.nil_prefix⟩

/-- The name read back from the local record. -/
theorem FoundSymbol.ansiName_eq (he : e.KeepsStrings) (f : FoundSymbol) (stack : List CHAR)
    (nameW : List WCHAR) : f.ansiName e d stack nameW = e.codePages.wideToAnsi
      (if (f.wideName e d stack).length < 467 then f.wideName e d stack
      else (f.wideName e d stack).take 467 ++ cstr (nameW.drop 467)) := by
  have hread := cstr_convertInto (n:=467) (f.wideName_noNul (d:=d) he stack) (by decide) nameW
  exact congrArg e.codePages.wideToAnsi hread

/-- Whatever the local record held, the name fits, or for some contents it does not. -/
theorem FoundSymbol.survives_iff (he : e.KeepsStrings) (f : FoundSymbol) (stack : List CHAR)
    (hint : n < 2^31) : (∀ nameW, NameFits (f.ansiForms e) n (f.ansiName e d stack nameW)) ↔
      f.Survives e d stack n := by
  simp only [ansiName_eq he,Survives,hint,true_and]
  constructor
  · intro hall
    by_cases hfit : (f.wideName e d stack).length < 467
    · have hone := hall []
      rw [if_pos hfit] at hone
      exact ⟨hfit,hone⟩
    · -- enough letters behind the buffer make any string too long
      have hlong := (hall (List.replicate 467 0 ++ List.replicate (2 * n.toNat) 65)).1
      have hlen := he.length ((f.wideName e d stack).take 467 ++ List.replicate (2 * n.toNat) 65)
      rw [if_neg hfit,List.drop_left' List.length_replicate,
        cstr_replicate (by decide)] at hlong
      rw [List.length_append,List.length_replicate] at hlen
      omega
  · intro h nameW
    rw [if_pos h.1]
    exact h.2

theorem FoundSymbol.fillAnsi_fits (he : e.KeepsStrings) (hn : n ≠ 0) (hint : n < 2^31)
    (names : List (List CHAR)) :
    NameFits names n (cstr (f.fillAnsi e d stack nameW n heap)) ↔
      NameFits names n (f.ansiName e d stack nameW) := by
  rw [fillAnsi,convertSized_of_lt hint]
  exact nameFits_cstr_convertInto names (f.ansiName_noNul he stack nameW) hn heap

/-- A refused conversion leaves what the record held, as long as one likes. -/
theorem FoundSymbol.fillAnsi_refused (f : FoundSymbol) (hneg : 2^31 ≤ n) :
    cstr (f.fillAnsi e d stack nameW n (List.replicate n.toNat 65)) =
      List.replicate n.toNat 65 := by
  rw [fillAnsi,convertSized_of_le hneg]
  exact cstr_replicate (by decide) _

/-- What the ANSI record is read as, over all contents of the memory it is in. -/
theorem FoundSymbol.readAs_iff (he : e.KeepsStrings) (hn : n ≠ 0) (hint : n < 2^31) :
    f.ReadAs e d stack n Name ↔ ∃ nameW heap, Name = cstr (f.fillAnsi e d stack nameW n heap) := by
  have hread : ∀ nameW heap, cstr (f.fillAnsi e d stack nameW n heap) =
      if (f.ansiName e d stack nameW).length < n.toNat then f.ansiName e d stack nameW
      else (f.ansiName e d stack nameW).take n.toNat ++ cstr (heap.drop n.toNat) := by
    intro nameW heap
    rw [fillAnsi,convertSized_of_lt hint]
    exact cstr_convertInto (f.ansiName_noNul he stack nameW) (toNat_ne_zero hn) heap
  constructor
  · rintro ⟨behindW,behind,hW,hA,rfl⟩
    refine ⟨List.replicate 467 0 ++ behindW,List.replicate n.toNat 0 ++ behind,?_⟩
    rw [hread,ansiName_eq he,List.drop_left' List.length_replicate,
      List.drop_left' List.length_replicate,cstr_of_notMem hW,cstr_of_notMem hA]
  · rintro ⟨nameW,heap,rfl⟩
    refine ⟨cstr (nameW.drop 467),cstr (heap.drop n.toNat),zero_notMem_cstr _,zero_notMem_cstr _,?_⟩
    rw [hread,ansiName_eq he]

theorem symbolName_noNul (b : Build) (image : Image) (i : DWORD) : 0 ∉ symbolName b image i := by
  have hstring : ∀ offset, 0 ∉ stringAt image offset := by
    intro offset
    rw [stringAt]
    split
    · exact List.not_mem_nil
    · exact zero_notMem_cstr _
  rw [symbolName]
  split
  · split
    · exact fun h => zero_notMem_cstr _ (List.mem_of_mem_tail h)
    · exact zero_notMem_cstr _
  · split
    · exact fun h => hstring _ (List.mem_of_mem_tail h)
    · exact hstring _

/-- A symbol named by the search is one that can be found. -/
theorem coff_noNul {b : Build} {image : Image} {nFileSize : ℕ} {Addr : DWORD64} {best : Nearest}
    {name : List CHAR} (h : pe_find_symbol b image nFileSize Addr = some (.scanned best))
    (hname : best.name = some name) : 0 ∉ name := by
  obtain ⟨base,o,-,rfl,-,-⟩ := pe_find_symbol_named h
  cases o with
  | none => simp [recordOf,nearestOf] at hname
  | some c =>
    rw [recordOf_some] at hname
    obtain rfl := Option.some.inj hname
    exact symbolName_noNul _ _ _

section Answers

variable {w : World} {h : HANDLE} {a Offset : DWORD64} {disp : Option DWORD64} {m : Module}
  {r r' : Registry} {Symbol : SymbolInfo WCHAR}

/-- A DWARF answer of `MgwSymFromAddrW` is filled in like this, with zeros behind the
buffers. -/
theorem ownSymbol_dwarf {info : DwarfSymbolInfo} (hn : 0 ∉ info.functionname)
    (hfind : mgwhelp_find_module e.toSetting w h a r = some (some (m,Offset),r'))
    (hinfo : (m.events e a).bind dwarf_find_symbol = some info) :
    ownSymbol e w d h a disp Symbol r = some ((some ⟨true,disp.map fun _ => info.offset_addr.toUInt64,
      FoundSymbol.fill e d ⟨.dwarf,info.functionname,hn⟩ [] Symbol⟩,disp),r') := by
  rw [ownSymbol,hfind]
  dsimp only
  rw [hinfo]
  rfl

theorem ownSymbol_coff {best : Nearest} {name : List CHAR}
    (hfind : mgwhelp_find_module e.toSetting w h a r = some (some (m,Offset),r'))
    (hinfo : (m.events e a).bind dwarf_find_symbol = none)
    (hscan : pe_find_symbol e.build m.image m.nFileSize Offset = some (.scanned best))
    (hname : best.name = some name) :
    ownSymbol e w d h a disp Symbol r =
      some ((some ⟨true,disp.map fun _ => best.Displacement,
        FoundSymbol.fill e d ⟨.coff,name,coff_noNul hscan hname⟩ [] Symbol⟩,
        disp.map fun _ => best.Displacement),r') := by
  rw [ownSymbol,hfind]
  dsimp only
  rw [hinfo,hscan]
  rw [Option.map_some,PeAnswer.name,hname,Option.map_some]
  simp only [FoundSymbol.fill,FoundSymbol.wideName,FoundSymbol.read,List.append_nil]
  rfl

/-- The ANSI record is filled in from the local one. -/
theorem MgwSymFromAddr_answered {disp' disp'' : Option DWORD64} (Symbol : SymbolInfo CHAR)
    (ho : ownSymbol e w d h a disp localSymbolW r =
      some ((some ⟨true,disp',f.fill e d stack localSymbolW⟩,disp''),r')) :
    MgwSymFromAddr e w d h a disp Symbol r = some (⟨true,disp',{ Symbol with
      Name := f.fillAnsi e d stack localSymbolW.Name Symbol.MaxNameLen Symbol.Name }⟩,r') := by
  rw [MgwSymFromAddr,MgwSymFromAddrW,ho]
  rfl

end Answers

/-- `GetSymFromAddr` with the ANSI record filled in, for each way it can go on. -/
theorem FoundSymbol.get_copied (hopt : d.SymGetOptions &&& SYMOPT_UNDNAME ≠ 0)
    (names : List (List CHAR)) :
    HoldsName names n (f.GetSymFromAddr e u l d stack nameW heap lpSymName n) ↔
      NameFits names n (cstr (f.fillAnsi e d stack nameW n heap)) := by
  rw [GetSymFromAddr,if_pos hopt]
  exact holdsName_strncpy _ (zero_notMem_cstr _) _

theorem FoundSymbol.get_undecorated (he : e.KeepsStrings) (hn : n ≠ 0)
    (hopt : d.SymGetOptions &&& SYMOPT_UNDNAME = 0)
    (hName : Name = cstr (f.fillAnsi e d stack nameW n heap)) :
    HoldsName (f.undecoratedForms e u l) n
        (f.GetSymFromAddr e u l d stack nameW heap lpSymName n) ↔
      f.Completed e u l Name lpSymName n := by
  have hund : 0 ∉ undecoratedName e u l Name UNDNAME_NAME_ONLY := undecoratedName_notMem he.wideToAnsi
  rw [GetSymFromAddr,if_neg (not_not.mpr hopt),← hName]
  by_cases hfail : UndecorationFails e u l Name n UNDNAME_NAME_ONLY
  · have hz := undecorate_fails hn hfail lpSymName
    simp only [hz,if_true]
    rw [holdsName_strncpy _ (hName ▸ zero_notMem_cstr _)]
    exact ⟨fun h => ⟨fun _ => h,fun hs => absurd hfail hs,fun hs => absurd hfail hs⟩,
      fun h => h.failed hfail⟩
  · cases hD : demangle e.toLibraries (demanglerName u l (passedName e l Name)) UNDNAME_NAME_ONLY with
    | some D =>
      obtain ⟨hlt,hr⟩ := undecorate_demangled hfail hD lpSymName
      simp only [hr,ofNat_succ_ne_zero (n:=n) hlt,if_false]
      rw [holdsName_iff_cstr,cstr_append_zero hund,and_iff_right (by simp)]
      exact ⟨fun h => ⟨fun hf => absurd hf hfail,fun _ _ => h,fun _ hn => by simp [hD] at hn⟩,
        fun h => h.demangled hfail (by simp [hD])⟩
    | none =>
      obtain ⟨hle,hne,hr⟩ := undecorate_dbgHelp hfail hD lpSymName
      have hlen : UInt32.ofNat (undecoratedName e u l Name UNDNAME_NAME_ONLY).length ≠ 0 := by
        rw [ne_eq,← UInt32.toNat_inj,toNat_ofNat_of_le hle]
        exact fun h => hne (List.length_eq_zero_iff.mp h)
      simp only [hr,hlen,if_false]
      rw [holdsName_iff_cstr,cstr_append_of_notMem hund,List.mem_append,or_iff_right hund]
      exact ⟨fun h => ⟨fun hf => absurd hf hfail,fun _ hs => absurd hD hs,fun _ _ => h⟩,
        fun h => h.dbgHelp hfail hD⟩

/-- The names of own answers: well-formed in the wide record for an empty string only; strings
in the ANSI record, and in the buffer of `GetSymFromAddr`, under these conditions. -/
theorem symbol_names_iff (e : Environment) (he : e.KeepsStrings) (u : Undecorator) (d : DbgHelp)
    (f : FoundSymbol) (stack : List CHAR) {n : DWORD} (hn : n ≠ 0) :
    (∀ Symbol : SymbolInfo WCHAR, Symbol.MaxNameLen = n →
      (HoldsName (f.forms e) n (f.fill e d stack Symbol).Name ↔
        n < 2^31 ∧ NameFits (f.forms e) n (f.wideName e d stack) ∨
          2^31 ≤ n ∧ HoldsName (f.forms e) n Symbol.Name) ∧
      (WellNamed (f.forms e) (f.fill e d stack Symbol) ↔
        2^31 ≤ n ∧ Symbol.Name.head? = some 0)) ∧
    (∀ Name, (∀ nameW, HoldsName (f.ansiForms e) n (f.fillAnsi e d stack nameW n Name)) ↔
      f.Survives e d stack n ∨ 2^31 ≤ n ∧ HoldsName (f.ansiForms e) n Name) ∧
    (d.SymGetOptions &&& SYMOPT_UNDNAME ≠ 0 → ∀ lpSymName,
      (∀ nameW heap l, HoldsName (f.ansiForms e) n
        (f.GetSymFromAddr e u l d stack nameW heap lpSymName n)) ↔ f.Survives e d stack n) ∧
    (d.SymGetOptions &&& SYMOPT_UNDNAME = 0 → ∀ lpSymName,
      (∀ nameW heap l, HoldsName (f.undecoratedForms e u l) n
        (f.GetSymFromAddr e u l d stack nameW heap lpSymName n)) ↔
      n < 2^31 ∧ ∀ Name, f.ReadAs e d stack n Name → ∀ l, f.Completed e u l Name lpSymName n) := by
  refine ⟨?_,fun Name => ?_,fun hopt lpSymName => ?_,fun hopt lpSymName => ?_⟩
  · rintro Symbol rfl
    exact ⟨f.fill_holdsName he stack hn (f.forms e),f.fill_wellNamed he stack hn⟩
  · have hone (nameW) : HoldsName (f.ansiForms e) n (f.fillAnsi e d stack nameW n Name) ↔
        n < 2^31 ∧ NameFits (f.ansiForms e) n (f.ansiName e d stack nameW) ∨
          2^31 ≤ n ∧ HoldsName (f.ansiForms e) n Name :=
      holdsName_convertSized (f.ansiForms e) (f.ansiName_noNul he stack nameW) hn Name
    by_cases hint : n < 2^31
    · rw [← f.survives_iff he stack hint]
      simp [hone,hint,UInt32.not_le.mpr hint]
    · simp [hone,FoundSymbol.Survives,hint]
  · simp only [FoundSymbol.get_copied hopt]
    by_cases hint : n < 2^31
    · rw [← f.survives_iff he stack hint]
      simp only [FoundSymbol.fillAnsi_fits he hn hint]
      exact forall_congr' fun nameW => ⟨fun h => h [] ⟨[],[],[]⟩,fun h _ _ => h⟩
    · have hfull : cstr (f.fillAnsi e d stack [] n (List.replicate n.toNat 65)) =
          List.replicate n.toNat 65 := f.fillAnsi_refused (UInt32.not_lt.mp hint)
      refine iff_of_false (fun h => ?_) fun h => hint h.1
      exact not_nameFits_replicate _ 65 (hfull ▸ h [] _ ⟨[],[],[]⟩)
  · by_cases hint : n < 2^31
    · simp only [FoundSymbol.readAs_iff he hn hint,hint,true_and]
      constructor
      · rintro h Name ⟨nameW,heap,rfl⟩ l
        exact (FoundSymbol.get_undecorated he hn hopt rfl).mp (h nameW heap l)
      · intro h nameW heap l
        exact (FoundSymbol.get_undecorated he hn hopt rfl).mpr (h _ ⟨nameW,heap,rfl⟩ l)
    · have hneg := UInt32.not_lt.mp hint
      refine iff_of_false (fun h => ?_) fun h => hint h.1
      have hdone := (FoundSymbol.get_undecorated he hn hopt
        (f.fillAnsi_refused hneg).symm).mp (h [] _ ⟨[],[],[]⟩)
      exact not_nameFits_replicate _ 65 (hdone.failed (.inl hneg))

/-- `_Z1fv`, in DWARF. -/
def mangledSymbol : FoundSymbol := ⟨.dwarf,[95,90,49,102,118],by decide⟩

/-- It gets through to an ANSI record of 16 characters that held something else. -/
theorem symbol_names_mangled :
    HoldsName (mangledSymbol.ansiForms demanglingEnvironment) 16
      (mangledSymbol.fillAnsi demanglingEnvironment bareDbgHelp [] (List.replicate 467 98) 16
        (List.replicate 16 99)) :=
  ((symbol_names_iff demanglingEnvironment demanglingEnvironment_keepsStrings plainUndecorator
    bareDbgHelp mangledSymbol [] (show (16 : DWORD) ≠ 0 by decide)).2.1 _).mpr
    (.inl ⟨by decide,by decide +kernel,by decide +kernel,_,List.mem_cons_self,List.prefix_refl _⟩) _

/-- 467 letters, in DWARF. -/
def longSymbol : FoundSymbol := ⟨.dwarf,List.replicate 467 97,by decide +kernel⟩

/-- For `g` the length 2 is returned. A name of 467 letters is read on behind the local
record. -/
theorem symbol_names_broken :
    ((mgwhelpAfter bareEnvironment [bareRequest (.SymInitialize 1)]).bind fun s =>
        (MgwSymFromAddrW bareEnvironment twoFunctionsWorld bareDbgHelp 1 0x11050 none
          ⟨{},0,16,List.replicate 16 0⟩ s.registry).map (·.1)) =
      some ⟨true,none,⟨{},2,16,103::List.replicate 15 0⟩⟩ ∧
    ¬WellNamed [[103]] ⟨{},2,16,103::List.replicate 15 0⟩ ∧
    ¬HoldsName (longSymbol.ansiForms bareEnvironment) 512 (longSymbol.fillAnsi bareEnvironment
      bareDbgHelp [] (List.replicate 1024 98) 512 (List.replicate 512 0)) := by
  refine ⟨by decide +kernel,fun h => absurd h.length (by decide +kernel),?_⟩
  simp only [HoldsName,HoldsPrefix]
  decide +kernel

end DrMingw
