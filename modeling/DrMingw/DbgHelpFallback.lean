import DrMingw.CStrings
import DrMingw.LineHistory

/-! The six wrapped calls side by side with the functions of `DbgHelp` they are named
after, where `MgwHelp` has no answer of its own. -/
namespace DrMingw
open PeImage

/-- A symbol as `DbgHelp` knows it. -/
structure KnownSymbol where
  data : SymbolData
  Displacement : DWORD64
  Name : List WCHAR

/-- A source line as `DbgHelp` knows it. -/
structure KnownLine where
  Key : HANDLE := NULL
  LineNumber : DWORD
  FileName : List WCHAR
  Address : DWORD64
  Displacement : DWORD

/-- What `DbgHelp` knows about the addresses of each process. -/
structure Knowledge where
  symbolAt : HANDLE → DWORD64 → Option KnownSymbol
  lineAt : HANDLE → DWORD64 → Option KnownLine

/-- `Name` is cut to the room the caller has, and not used where there is none. -/
def KnownSymbol.fill {C : Type} [Zero C] (x : KnownSymbol) (name : List C)
    (Symbol : SymbolInfo C) : SymbolInfo C :=
  let shown := name.take (Symbol.MaxNameLen.toNat - 1)
  { Symbol with
    data := x.data
    NameLen := UInt32.ofNat name.length
    Name := if Symbol.MaxNameLen = 0 then Symbol.Name
      else shown ++ 0 :: Symbol.Name.drop (shown.length + 1) }

/-- A symbol lookup that fills in everything if a symbol is known, else nothing. -/
def symbolReply {C : Type} [Zero C] (found : Option KnownSymbol) (convert : List WCHAR → List C)
    (Displacement : Option DWORD64) (Symbol : SymbolInfo C) : Reply DWORD64 (SymbolInfo C) :=
  match found with
  | none => ⟨false,Displacement,Symbol⟩
  | some x => ⟨true,Displacement.map fun _ => x.Displacement,x.fill (convert x.Name) Symbol⟩

/-- A line lookup, likewise. -/
def lineReply {C : Type} (found : Option KnownLine) (convert : List WCHAR → List C)
    (pdwDisplacement : Option DWORD) (l : Line C) : Reply DWORD (Line C) :=
  match found with
  | none => ⟨false,pdwDisplacement,l⟩
  | some x => ⟨true,pdwDisplacement.map fun _ => x.Displacement,
      ⟨x.Key,x.LineNumber,some (convert x.FileName),x.Address⟩⟩

/-- `DbgHelp` as documented: the functions for both kinds of strings answer from the
same knowledge, and differ in the conversion of the strings only. -/
structure DbgHelp.Documented (d : DbgHelp) (cp : CodePages) (k : Knowledge) : Prop where
  SymFromAddr : ∀ h a disp Symbol,
    d.SymFromAddr h a disp Symbol = symbolReply (k.symbolAt h a) cp.wideToAnsi disp Symbol
  SymFromAddrW : ∀ h a disp Symbol,
    d.SymFromAddrW h a disp Symbol = symbolReply (k.symbolAt h a) id disp Symbol
  SymGetLineFromAddr64 : ∀ h a disp l,
    d.SymGetLineFromAddr64 h a disp l = lineReply (k.lineAt h a) cp.wideToAnsi disp l
  SymGetLineFromAddrW64 : ∀ h a disp l,
    d.SymGetLineFromAddrW64 h a disp l = lineReply (k.lineAt h a) id disp l
  names : ∀ h a x, k.symbolAt h a = some x → (0 : WCHAR) ∉ x.Name
  fileNames : ∀ h a x, k.lineAt h a = some x → (0 : WCHAR) ∉ x.FileName
  /-- A conversion brings no NUL into a string. -/
  wideToAnsi : ∀ s : List WCHAR, 0 ∉ s → (0 : CHAR) ∉ cp.wideToAnsi s

/-- The calls `MgwHelp` wraps. -/
inductive WrappedCall
  | SymLoadModuleEx (r : LoadRequest CHAR)
  | SymLoadModuleExW (r : LoadRequest WCHAR)
  | SymFromAddr (hProcess : HANDLE) (Address : DWORD64) (Displacement : Option DWORD64)
      (Symbol : SymbolInfo CHAR)
  | SymFromAddrW (hProcess : HANDLE) (Address : DWORD64) (Displacement : Option DWORD64)
      (Symbol : SymbolInfo WCHAR)
  | SymGetLineFromAddr64 (hProcess : HANDLE) (dwAddr : DWORD64) (pdwDisplacement : Option DWORD)
      (Line : Line CHAR)
  | SymGetLineFromAddrW64 (hProcess : HANDLE) (dwAddr : DWORD64) (pdwDisplacement : Option DWORD)
      (Line : Line WCHAR)

/-- What a wrapped call gives its caller. -/
inductive Outcome
  | base (ret : DWORD64)
  | symbol (r : Reply DWORD64 (SymbolInfo CHAR))
  | symbolW (r : Reply DWORD64 (SymbolInfo WCHAR))
  | line (r : Reply DWORD (Line CHAR))
  | lineW (r : Reply DWORD (Line WCHAR))
  deriving DecidableEq

namespace WrappedCall

variable (e : Environment) (w : World) (d : DbgHelp) (k : Knowledge) (s : MgwHelp)

/-- The call made through `MgwHelp`; `none` if it does not return. -/
def through : WrappedCall → Option Outcome
  | .SymLoadModuleEx r => (MgwSymLoadModuleEx e w d r s.registry).map fun x => .base x.1
  | .SymLoadModuleExW r => (MgwSymLoadModuleExW e w d r s.registry).map fun x => .base x.1
  | .SymFromAddr h a disp Symbol =>
    (MgwSymFromAddr e w d h a disp Symbol s.registry).map fun x => .symbol x.1
  | .SymFromAddrW h a disp Symbol =>
    (MgwSymFromAddrW e w d h a disp Symbol s.registry).map fun x => .symbolW x.1
  | .SymGetLineFromAddr64 h a disp l =>
    (MgwSymGetLineFromAddr64 e w d h a disp l s).map fun x => .line x.1
  | .SymGetLineFromAddrW64 h a disp l =>
    (MgwSymGetLineFromAddrW64 e w d h a disp l s).map fun x => .lineW x.1

/-- The call made of `DbgHelp`. -/
def direct : WrappedCall → Outcome
  | .SymLoadModuleEx r => .base (d.SymLoadModuleEx r)
  | .SymLoadModuleExW r => .base (d.SymLoadModuleExW r)
  | .SymFromAddr h a disp Symbol => .symbol (d.SymFromAddr h a disp Symbol)
  | .SymFromAddrW h a disp Symbol => .symbolW (d.SymFromAddrW h a disp Symbol)
  | .SymGetLineFromAddr64 h a disp l => .line (d.SymGetLineFromAddr64 h a disp l)
  | .SymGetLineFromAddrW64 h a disp l => .lineW (d.SymGetLineFromAddrW64 h a disp l)

/-- What dwarfstack reports for the address names no file. -/
def NoLine (h : HANDLE) (a : DWORD64) : Prop :=
  (reported e w h a s.registry).map (fun events => lastFileName (events.getD [])) = some []

/-- A lookup ends without a DWARF or COFF answer; a load just has to return. -/
def Unanswered : WrappedCall → Prop
  | .SymLoadModuleEx r => (MgwSymLoadModuleEx e w d r s.registry).isSome
  | .SymLoadModuleExW r => (MgwSymLoadModuleExW e w d r s.registry).isSome
  | .SymFromAddr h a disp _ =>
    (ownSymbol e w d h a disp localSymbolW s.registry).map (·.1.1) = some none
  | .SymFromAddrW h a disp Symbol =>
    (ownSymbol e w d h a disp Symbol s.registry).map (·.1.1) = some none
  | .SymGetLineFromAddr64 h a _ _ => NoLine e w s h a
  | .SymGetLineFromAddrW64 h a _ _ => NoLine e w s h a

/-- The address lies in a module whose COFF symbols are gone through. -/
def scansCoff (h : HANDLE) (a : DWORD64) : Bool :=
  match mgwhelp_find_module e.toSetting w h a s.registry with
  | some (some (module,_),_) =>
    !symbolTableExtendsBeyond e.build module.image module.nFileSize &&
      (ImageBase module.image).isSome
  | _ => false

/-- `*Displacement` as it is passed on to `DbgHelp`. -/
def passedDisplacement (h : HANDLE) (a : DWORD64) (disp : Option DWORD64) : Option DWORD64 :=
  if scansCoff e w s h a then disp.map fun _ => 0xFFFFFFFFFFFFFFFF else disp

/-- Where `DbgHelp` does not know the symbol, `*Displacement` is not overwritten, or
with the value it has. -/
def KeepsDisplacement (h : HANDLE) (a : DWORD64) (disp : Option DWORD64) : Prop :=
  k.symbolAt h a = none → scansCoff e w s h a = true →
    disp = none ∨ disp = some 0xFFFFFFFFFFFFFFFF

/-- The name of a symbol, as much of it as the local record has room for. -/
def localName (name : List WCHAR) : List WCHAR := name.take (localSymbolW.MaxNameLen.toNat - 1)

/-- The record of the caller already holds what is not copied, and the name fits. With a
`MaxNameLen` that is negative as an `int` the name is not copied either. -/
structure SymbolSurvives (cp : CodePages) (x : KnownSymbol) (Symbol : SymbolInfo CHAR) :
    Prop where
  data : Symbol.data = x.data
  NameLen : Symbol.NameLen = UInt32.ofNat (cp.wideToAnsi x.Name).length
  Name : Symbol.MaxNameLen ≠ 0 → Symbol.MaxNameLen < 2^31 →
    (cp.wideToAnsi (localName x.Name)).length < Symbol.MaxNameLen.toNat ∧
      cp.wideToAnsi (localName x.Name) =
        (cp.wideToAnsi x.Name).take (Symbol.MaxNameLen.toNat - 1)
  uncopied : 2^31 ≤ Symbol.MaxNameLen →
    (cp.wideToAnsi x.Name).take (Symbol.MaxNameLen.toNat - 1) ++ [0] <+: Symbol.Name

/-- A module with debug information is found, no line of it is reported for the
address, and the record of the last line still names a file. -/
def repeatsLine (h : HANDLE) (a : DWORD64) : Bool :=
  match reported e w h a s.registry with
  | some (some events) => !events.any DwstEvent.isLine && s.info.filename ≠ []
  | _ => false

/-- The line known is the one given, and the record of the caller already holds the
rest of it. -/
structure LineAgrees {C : Type} (x : KnownLine) (convert : List WCHAR → List C) (l : Line C)
    (disp : Option DWORD) (FileName : Option (List C)) (LineNumber offset : DWORD) : Prop where
  Key : l.Key = x.Key
  Address : l.Address = x.Address
  LineNumber : LineNumber = x.LineNumber
  FileName : FileName = some (convert x.FileName)
  offset : disp ≠ none → offset = x.Displacement

/-- The file name as it gets through the buffer of `MgwSymGetLineFromAddr64`. -/
def ansiFileName (cp : CodePages) (name : List WCHAR) : Option (List CHAR) :=
  stringIn (convertInto (cp.wideToAnsi name) 1024 (List.replicate 1024 0)).2

/-- The file name of the record as it gets through the buffer of
`MgwSymGetLineFromAddrW64`. -/
def recordFileName : Option (List WCHAR) := stringIn (strncpy s.info.filename 1024)

/-- When a call made through `MgwHelp` is as good as one made of `DbgHelp`. -/
def Transparent : WrappedCall → Prop
  | .SymLoadModuleEx r => d.SymLoadModuleEx r < 2^32
  | .SymLoadModuleExW r => d.SymLoadModuleExW r < 2^32
  | .SymFromAddr h a disp Symbol => KeepsDisplacement e w k s h a disp ∧
      ∀ x, k.symbolAt h a = some x → SymbolSurvives e.codePages x Symbol
  | .SymFromAddrW h a disp _ => KeepsDisplacement e w k s h a disp
  | .SymGetLineFromAddr64 h a disp l =>
    if repeatsLine e w s h a then
      ∃ x, k.lineAt h a = some x ∧ LineAgrees x e.codePages.wideToAnsi l disp
        (ansiFileName e.codePages ((recordFileName s).getD [])) s.info.line s.info.offset_addr
    else ∀ x, k.lineAt h a = some x →
      l.Key = x.Key ∧ l.Address = x.Address ∧ (e.codePages.wideToAnsi x.FileName).length < 1024
  | .SymGetLineFromAddrW64 h a disp l =>
    repeatsLine e w s h a = true → ∃ x, k.lineAt h a = some x ∧
      LineAgrees x id l disp (recordFileName s) s.info.line s.info.offset_addr

end WrappedCall

open WrappedCall

variable {e : Environment} {w : World} {d : DbgHelp} {k : Knowledge} {s : MgwHelp}
  {h : HANDLE} {a : DWORD64}

/-- A `DWORD` holds a base exactly if it lies below 4 GiB. -/
theorem dwRet_eq_iff (base : DWORD64) : base.toUInt32.toUInt64 = base ↔ base < 2^32 := by
  rw [← UInt64.toNat_inj,UInt64.lt_iff_toNat_lt]
  simp only [UInt32.toNat_toUInt64,UInt64.toNat_toUInt32]
  change base.toNat % 2^32 = base.toNat ↔ base.toNat < 2^32
  omega

theorem load_base {ret : DWORD64} {hProcess hFile : HANDLE} {name : Option (List WCHAR)}
    {base : DWORD64} {r : Registry} {x : DWORD64 × Registry}
    (hx : mgwSymLoadModuleEx e w ret hProcess hFile name base r = some x) :
    x.1 = ret.toUInt32.toUInt64 := by
  simp only [mgwSymLoadModuleEx] at hx
  split at hx
  · obtain ⟨y,-,rfl⟩ := Option.map_eq_some_iff.mp hx
    rfl
  · obtain rfl := Option.some.inj hx
    rfl

/-- The displacement passed on is the one passed in unless the symbols were gone through. -/
theorem ownSymbol_unanswered {disp disp' : Option DWORD64} {Symbol : SymbolInfo WCHAR}
    {r' : Registry} (ho : ownSymbol e w d h a disp Symbol s.registry = some ((none,disp'),r')) :
    disp' = passedDisplacement e w s h a disp := by
  simp only [ownSymbol] at ho
  simp only [passedDisplacement]
  split at ho
  · simp at ho
  · next r hf =>
    obtain ⟨rfl,-⟩ := by simpa using ho
    have hscan : scansCoff e w s h a = false := by simp [scansCoff,hf]
    rw [hscan]
    rfl
  · next module Offset r hf =>
    split at ho
    · simp at ho
    · obtain ⟨answer,hp,ha⟩ := Option.map_eq_some_iff.mp ho
      simp only [Prod.mk.injEq,Option.map_eq_none_iff] at ha
      obtain ⟨⟨hname,rfl⟩,-⟩ := ha
      have hscan : scansCoff e w s h a = answer.isScanned := by
        simp only [scansCoff,hf]
        exact pe_find_symbol_scanned hp
      rw [hscan]
      cases answer with
      | refused => rfl
      | scanned best =>
        rw [PeAnswer.displacement,pe_find_symbol_nameless hp hname]
        rfl

/-- An overwritten displacement shows only where nothing else is filled in. -/
theorem symbolReply_passed {C : Type} [Zero C] (k : Knowledge)
    (convert : List WCHAR → List C) (disp : Option DWORD64) (Symbol : SymbolInfo C) :
    symbolReply (k.symbolAt h a) convert (passedDisplacement e w s h a disp) Symbol =
        symbolReply (k.symbolAt h a) convert disp Symbol ↔ KeepsDisplacement e w k s h a disp := by
  simp only [passedDisplacement,KeepsDisplacement]
  cases scansCoff e w s h a <;> cases k.symbolAt h a <;> cases disp <;>
    simp [symbolReply,eq_comm]

theorem MgwSymFromAddrW_unanswered {disp : Option DWORD64} {Symbol : SymbolInfo WCHAR}
    (hu : (ownSymbol e w d h a disp Symbol s.registry).map (·.1.1) = some none) :
    ∃ r', MgwSymFromAddrW e w d h a disp Symbol s.registry =
      some (d.SymFromAddrW h a (passedDisplacement e w s h a disp) Symbol,r') := by
  obtain ⟨⟨⟨answer,disp'⟩,r'⟩,ho,ha⟩ := Option.map_eq_some_iff.mp hu
  obtain rfl : answer = none := ha
  refine ⟨r',?_⟩
  rw [MgwSymFromAddrW,ho,← ownSymbol_unanswered ho]
  rfl

/-- A conversion leaves in a buffer what a cut name would exactly if it fits. -/
theorem convertInto_eq_cut {C : Type} [Zero C] [DecidableEq C] {name cut buf : List C} {n : ℕ}
    (hn : n ≠ 0) (hname : (0 : C) ∉ name) (hcut : (0 : C) ∉ cut) (hlen : cut.length < n) :
    (convertInto name n buf).2 = cut ++ 0 :: buf.drop (cut.length + 1) ↔
      name.length < n ∧ name = cut := by
  rw [convertInto,if_neg hn]
  by_cases hfit : name.length < n
  · rw [if_pos hfit]
    constructor
    · intro heq
      have hstr := congrArg cstr heq
      rw [cstr_append_zero hname,cstr_append_zero hcut] at hstr
      exact ⟨hfit,hstr⟩
    · rintro ⟨-,rfl⟩
      rfl
  · rw [if_neg hfit]
    refine ⟨fun heq => absurd ?_ hname,fun hx => absurd hx.1 hfit⟩
    -- the NUL behind the cut name stands where the conversion has a character of the name
    have hat := congrArg (fun l => l[cut.length]?) heq
    have hin : cut.length < (name.take n).length := by
      rw [List.length_take]
      omega
    simp only [List.getElem?_append_left hin,List.getElem?_append_right (Nat.le_refl _),
      Nat.sub_self,List.getElem?_cons_zero] at hat
    exact List.mem_of_mem_take (List.mem_of_getElem? hat)

theorem eq_append_cons_drop_iff {C : Type} {s buf : List C} {c : C} :
    buf = s ++ c :: buf.drop (s.length + 1) ↔ s ++ [c] <+: buf := by
  constructor
  · intro h
    exact ⟨buf.drop (s.length + 1),by simpa using h.symm⟩
  · rintro ⟨rest,rfl⟩
    simp

/-- The name of the local record, read back. -/
theorem localName_read {x : KnownSymbol} (hx : (0 : WCHAR) ∉ x.Name) :
    cstr (x.fill x.Name localSymbolW).Name = localName x.Name :=
  cstr_append_zero (fun h => hx (List.mem_of_mem_take h)) _

theorem MgwSymFromAddr_known {cp : CodePages} (hcp : ∀ s : List WCHAR, 0 ∉ s → 0 ∉ cp.wideToAnsi s)
    {x : KnownSymbol} (hx : (0 : WCHAR) ∉ x.Name) (Symbol : SymbolInfo CHAR) :
    { Symbol with
        Name := (convertSized (convertInto (cp.wideToAnsi (localName x.Name))) Symbol.MaxNameLen
          Symbol.Name).2 } = x.fill (cp.wideToAnsi x.Name) Symbol ↔
      SymbolSurvives cp x Symbol := by
  have hlocal : (0 : CHAR) ∉ cp.wideToAnsi (localName x.Name) :=
    hcp _ fun h => hx (List.mem_of_mem_take h)
  have hname : (convertSized (convertInto (cp.wideToAnsi (localName x.Name))) Symbol.MaxNameLen
      Symbol.Name).2 = (x.fill (cp.wideToAnsi x.Name) Symbol).Name ↔
      (Symbol.MaxNameLen ≠ 0 → Symbol.MaxNameLen < 2^31 →
        (cp.wideToAnsi (localName x.Name)).length < Symbol.MaxNameLen.toNat ∧
          cp.wideToAnsi (localName x.Name) =
            (cp.wideToAnsi x.Name).take (Symbol.MaxNameLen.toNat - 1)) ∧
      (2^31 ≤ Symbol.MaxNameLen →
        (cp.wideToAnsi x.Name).take (Symbol.MaxNameLen.toNat - 1) ++ [0] <+: Symbol.Name) := by
    by_cases hM : Symbol.MaxNameLen = 0
    · have hint : Symbol.MaxNameLen < 2^31 := hM ▸ by decide
      refine iff_of_true ?_ ⟨fun h => absurd hM h,fun h => absurd hint (UInt32.not_lt.mpr h)⟩
      rw [convertSized_of_lt hint]
      simp [KnownSymbol.fill,convertInto,hM]
    · have hn : Symbol.MaxNameLen.toNat ≠ 0 := fun h => hM (UInt32.toNat_inj.mp h)
      have hlen : ((cp.wideToAnsi x.Name).take (Symbol.MaxNameLen.toNat - 1)).length <
          Symbol.MaxNameLen.toNat := by
        rw [List.length_take]
        omega
      simp only [KnownSymbol.fill,ne_eq,hM,not_false_eq_true,true_implies,if_false]
      by_cases hint : Symbol.MaxNameLen < 2^31
      · simp only [convertSized_of_lt hint,hint,UInt32.not_le.mpr hint,true_implies,false_implies,
          and_true]
        exact convertInto_eq_cut hn hlocal (fun h => hcp _ hx (List.mem_of_mem_take h)) hlen
      · have hneg := UInt32.not_lt.mp hint
        simp only [convertSized_of_le hneg,hneg,hint,true_implies,false_implies,true_and]
        exact eq_append_cons_drop_iff
  constructor
  · intro heq
    obtain ⟨hcopied,huncopied⟩ := hname.mp (congrArg SymbolInfo.Name heq)
    exact ⟨congrArg SymbolInfo.data heq,congrArg SymbolInfo.NameLen heq,hcopied,huncopied⟩
  · intro hs
    rw [hname.mpr ⟨hs.Name,hs.uncopied⟩,hs.data,hs.NameLen]
    rfl

/-- A string gets through a buffer exactly if its NUL fits in. -/
theorem stringIn_convertInto {C : Type} [Zero C] [DecidableEq C] {name buf : List C} {n : ℕ}
    (hn : n ≠ 0) (hname : (0 : C) ∉ name) (hbuf : buf.length = n) :
    stringIn (convertInto name n buf).2 = some name ↔ name.length < n := by
  rw [convertInto,if_neg hn]
  by_cases hfit : name.length < n
  · rw [if_pos hfit,stringIn,if_pos (by simp),cstr_append_zero hname]
    exact iff_of_true rfl hfit
  · have hcut : (0 : C) ∉ name.take n := fun h => hname (List.mem_of_mem_take h)
    rw [if_neg hfit,List.drop_eq_nil_of_le hbuf.le,List.append_nil,stringIn,if_neg hcut]
    exact iff_of_false (by simp) hfit

theorem ansiFileName_eq_iff {cp : CodePages} {name : List WCHAR}
    (hz : (0 : CHAR) ∉ cp.wideToAnsi name) :
    ansiFileName cp name = some (cp.wideToAnsi name) ↔ (cp.wideToAnsi name).length < 1024 :=
  stringIn_convertInto (by decide) hz List.length_replicate

/-- A file name, a line number and a displacement are all there is to a line. -/
theorem lineReply_eq_iff {C : Type} {found : Option KnownLine} {convert : List WCHAR → List C}
    {disp : Option DWORD} {l : Line C} {name : Option (List C)} {line offset : DWORD} :
    (⟨true,disp.map fun _ => offset,{ l with FileName := name, LineNumber := line }⟩ :
        Reply DWORD (Line C)) = lineReply found convert disp l ↔
      ∃ x, found = some x ∧ LineAgrees x convert l disp name line offset := by
  cases found with
  | none => simp [lineReply]
  | some x =>
    simp only [lineReply,Reply.mk.injEq,true_and,Option.some_inj,exists_eq_left',Line.mk.injEq]
    constructor
    · rintro ⟨hd,hk,hl,hf,ha⟩
      refine ⟨hk,ha,hl,hf,fun hne => ?_⟩
      obtain ⟨y,rfl⟩ := Option.ne_none_iff_exists'.mp hne
      simpa using hd
    · rintro ⟨hk,ha,hl,hf,hd⟩
      refine ⟨?_,hk,hl,hf,ha⟩
      cases disp with
      | none => rfl
      | some y => simp [hd]

/-- Without a line reported the wide wrapper passes the call on, or repeats its record. -/
theorem getLineW_unanswered (hu : NoLine e w s h a) (disp : Option DWORD) (l : Line WCHAR) :
    (MgwSymGetLineFromAddrW64 e w d h a disp l s).map (·.1) = some
      (if repeatsLine e w s h a then ⟨true,disp.map fun _ => s.info.offset_addr,
        { l with FileName := recordFileName s, LineNumber := s.info.line }⟩
      else d.SymGetLineFromAddrW64 h a disp l) := by
  obtain ⟨found,hx,hname⟩ := Option.map_eq_some_iff.mp hu
  rw [getLine_reported,hx,Option.map_some]
  simp only [repeatsLine,hx]
  cases found with
  | none => rfl
  | some events =>
    cases hline : events.any DwstEvent.isLine with
    | true =>
      have hfile : (events.foldl find_line_cbW {}).filename = [] := by
        rw [foldl_find_line_filename]
        exact hname
      rw [lineAnswer_line hline]
      simp [lineAnswer,dwarf_find_line,hfile,-List.any_eq_true,hline]
    | false =>
      simp only [lineAnswer,dwarf_find_line_status hline,hline,Bool.not_false,Bool.true_and]
      by_cases hr : s.info.filename = []
      · simp [hr]
      · simp [hr,recordFileName]

theorem through_line {disp : Option DWORD} {l : Line CHAR} {r : Reply DWORD (Line WCHAR)}
    (hr : (MgwSymGetLineFromAddrW64 e w d h a disp {} s).map (·.1) = some r) :
    through e w d s (.SymGetLineFromAddr64 h a disp l) =
      some (.line ⟨r.ret,r.Displacement,
        if r.ret then
          { l with
            FileName := ansiFileName e.codePages (r.record.FileName.getD [])
            LineNumber := r.record.LineNumber }
        else l⟩) := by
  obtain ⟨⟨r,s'⟩,hx,rfl⟩ := Option.map_eq_some_iff.mp hr
  simp only [through,MgwSymGetLineFromAddr64,hx,Option.map_some]
  rfl

theorem through_symbol {disp : Option DWORD64} {Symbol : SymbolInfo CHAR} {r' : Registry}
    {r : Reply DWORD64 (SymbolInfo WCHAR)}
    (hr : MgwSymFromAddrW e w d h a disp localSymbolW s.registry = some (r,r')) :
    through e w d s (.SymFromAddr h a disp Symbol) =
      some (.symbol ⟨r.ret,r.Displacement,
        if r.ret then
          { Symbol with
            Name := (convertSized (convertInto (e.codePages.wideToAnsi (cstr r.record.Name)))
              Symbol.MaxNameLen Symbol.Name).2 }
        else Symbol⟩) := by
  simp only [through,MgwSymFromAddr,hr,Option.map_some]

theorem symbol_transparent_iff (hd : d.Documented e.codePages k) {disp : Option DWORD64}
    {Symbol : SymbolInfo CHAR} (hu : Unanswered e w d s (.SymFromAddr h a disp Symbol)) :
    through e w d s (.SymFromAddr h a disp Symbol) =
        some (direct d (.SymFromAddr h a disp Symbol)) ↔
      Transparent e w d k s (.SymFromAddr h a disp Symbol) := by
  obtain ⟨r',hr⟩ := MgwSymFromAddrW_unanswered hu
  have hpassed := symbolReply_passed (e:=e) (w:=w) (s:=s) (h:=h) (a:=a) k
    e.codePages.wideToAnsi disp Symbol
  rw [through_symbol hr,hd.SymFromAddrW]
  simp only [direct,hd.SymFromAddr,Transparent,Option.some_inj,Outcome.symbol.injEq,← hpassed]
  cases hx : k.symbolAt h a with
  | none => simp [symbolReply]
  | some x =>
    have hname := hd.names h a x hx
    have hsame : (passedDisplacement e w s h a disp).map (fun _ => x.Displacement) =
        disp.map fun _ => x.Displacement := by
      simp only [passedDisplacement]
      split <;> cases disp <;> rfl
    simp only [symbolReply,id,if_true,localName_read hname,Reply.mk.injEq,true_and,hsame,
      Option.some_inj,forall_eq']
    exact MgwSymFromAddr_known hd.wideToAnsi hname Symbol

theorem line_transparent_iff (hd : d.Documented e.codePages k) {disp : Option DWORD}
    {l : Line CHAR} (hu : NoLine e w s h a) :
    through e w d s (.SymGetLineFromAddr64 h a disp l) =
        some (direct d (.SymGetLineFromAddr64 h a disp l)) ↔
      Transparent e w d k s (.SymGetLineFromAddr64 h a disp l) := by
  rw [through_line (getLineW_unanswered hu disp {})]
  simp only [direct,hd.SymGetLineFromAddr64,hd.SymGetLineFromAddrW64,Transparent,Option.some_inj,
    Outcome.line.injEq]
  cases repeatsLine e w s h a with
  | true => exact lineReply_eq_iff
  | false =>
    cases hx : k.lineAt h a with
    | none => simp [lineReply]
    | some x =>
      have hz := hd.wideToAnsi _ (hd.fileNames h a x hx)
      change (⟨true,disp.map fun _ => x.Displacement,{ l with
        FileName := ansiFileName e.codePages x.FileName, LineNumber := x.LineNumber }⟩ :
          Reply DWORD (Line CHAR)) = lineReply (some x) e.codePages.wideToAnsi disp l ↔ _
      rw [lineReply_eq_iff]
      simp only [Option.some_inj,exists_eq_left',forall_eq',Bool.false_eq_true,if_false]
      constructor
      · rintro ⟨hk,ha,-,hf,-⟩
        exact ⟨hk,ha,(ansiFileName_eq_iff hz).mp hf⟩
      · rintro ⟨hk,ha,hf⟩
        exact ⟨hk,ha,rfl,(ansiFileName_eq_iff hz).mpr hf,fun _ => rfl⟩

/-- Where `MgwHelp` has no answer of its own, a wrapped call gives what `DbgHelp` gives
exactly under the condition of its kind. -/
theorem fallback_transparent_iff (e : Environment) (w : World) (d : DbgHelp) (k : Knowledge)
    (hd : d.Documented e.codePages k) (s : MgwHelp) (c : WrappedCall)
    (hu : c.Unanswered e w d s) :
    c.through e w d s = some (c.direct d) ↔ c.Transparent e w d k s := by
  cases c with
  | SymLoadModuleEx r =>
    obtain ⟨x,hx⟩ := Option.isSome_iff_exists.mp hu
    simp only [through,direct,hx,Option.map_some,Option.some_inj,Outcome.base.injEq,load_base hx]
    exact dwRet_eq_iff _
  | SymLoadModuleExW r =>
    obtain ⟨x,hx⟩ := Option.isSome_iff_exists.mp hu
    simp only [through,direct,hx,Option.map_some,Option.some_inj,Outcome.base.injEq,load_base hx]
    exact dwRet_eq_iff _
  | SymFromAddr h a disp Symbol => exact symbol_transparent_iff hd hu
  | SymFromAddrW h a disp Symbol =>
    obtain ⟨r',hr⟩ := MgwSymFromAddrW_unanswered hu
    simp only [through,direct,hr,Option.map_some,Option.some_inj,Outcome.symbolW.injEq,
      hd.SymFromAddrW]
    exact symbolReply_passed k id disp Symbol
  | SymGetLineFromAddr64 h a disp l => exact line_transparent_iff hd hu
  | SymGetLineFromAddrW64 h a disp l =>
    have hr := congrArg (Option.map Outcome.lineW) (getLineW_unanswered (d:=d) hu disp l)
    rw [Option.map_map] at hr
    rw [show through e w d s (.SymGetLineFromAddrW64 h a disp l) = _ from hr]
    simp only [Option.map_some,direct,Transparent,hd.SymGetLineFromAddrW64,Option.some_inj,
      Outcome.lineW.injEq]
    cases repeatsLine e w s h a with
    | true =>
      simp only [if_true,true_implies]
      exact lineReply_eq_iff
    | false => simp

theorem bareCodePages_wideToAnsi (s : List WCHAR) (hs : 0 ∉ s) :
    (0 : CHAR) ∉ bareEnvironment.codePages.wideToAnsi s := by
  intro hz
  obtain ⟨c,hc,h0⟩ := List.mem_map.mp hz
  have hne : c ≠ 0 := fun h => hs (h ▸ hc)
  split at h0
  · next hlt =>
    have hn := congrArg UInt8.toNat h0
    simp only [UInt16.toNat_toUInt8,UInt8.toNat_zero] at hn
    rw [UInt16.lt_iff_toNat_lt] at hlt
    exact hne (UInt16.toNat_inj.mp ((Nat.mod_eq_of_lt hlt).symm.trans hn))
  · exact absurd h0 (by decide)

theorem bareDbgHelp_documented :
    bareDbgHelp.Documented bareEnvironment.codePages ⟨fun _ _ => none,fun _ _ => none⟩ where
  SymFromAddr _ _ _ _ := rfl
  SymFromAddrW _ _ _ _ := rfl
  SymGetLineFromAddr64 _ _ _ _ := rfl
  SymGetLineFromAddrW64 _ _ _ _ := rfl
  names _ _ _ h := by simp at h
  fileNames _ _ _ h := by simp at h
  wideToAnsi := bareCodePages_wideToAnsi

/-- The function `main` at 0x400000, and no lines. -/
def mainKnown : Knowledge where
  symbolAt _ a :=
    if 0x400000 ≤ a then some ⟨{ Address := 0x400000 },a - 0x400000,[109,97,105,110]⟩ else none
  lineAt _ _ := none

def mainDbgHelp : DbgHelp :=
  { bareDbgHelp with
    SymFromAddr h a disp Symbol := symbolReply (mainKnown.symbolAt h a)
      bareEnvironment.codePages.wideToAnsi disp Symbol
    SymFromAddrW h a disp Symbol := symbolReply (mainKnown.symbolAt h a) id disp Symbol }

theorem mainDbgHelp_documented :
    mainDbgHelp.Documented bareEnvironment.codePages mainKnown where
  SymFromAddr _ _ _ _ := rfl
  SymFromAddrW _ _ _ _ := rfl
  SymGetLineFromAddr64 _ _ _ _ := rfl
  SymGetLineFromAddrW64 _ _ _ _ := rfl
  names h a x hx := by
    simp only [mainKnown,Option.ite_none_right_eq_some,Option.some_inj] at hx
    obtain ⟨-,rfl⟩ := hx
    change (0 : WCHAR) ∉ [109,97,105,110]
    decide
  fileNames _ _ _ h := by simp [mainKnown] at h
  wideToAnsi := bareCodePages_wideToAnsi

theorem fallback_transparent_main :
    through bareEnvironment bareWorld mainDbgHelp {}
        (.SymFromAddrW 1 0x400010 (some 0) localSymbolW) =
      some (direct mainDbgHelp (.SymFromAddrW 1 0x400010 (some 0) localSymbolW)) :=
  (fallback_transparent_iff bareEnvironment bareWorld mainDbgHelp mainKnown
    mainDbgHelp_documented {} (.SymFromAddrW 1 0x400010 (some 0) localSymbolW) rfl).mpr
    fun hn => by simp [mainKnown] at hn

/-- The base of a library loaded above 4 GiB does not get through. -/
theorem high_base_truncated :
    ¬ ∀ (e : Environment) (w : World) (d : DbgHelp) (k : Knowledge),
      d.Documented e.codePages k → ∀ (s : MgwHelp) (c : WrappedCall), c.Unanswered e w d s →
      c.through e w d s = some (c.direct d) := by
  intro hall
  have hbase := hall bareEnvironment bareWorld bareDbgHelp _ bareDbgHelp_documented {}
    (.SymLoadModuleExW { hProcess := 1, BaseOfDll := 0x140000000 }) rfl
  exact absurd hbase (by decide)

end DrMingw
