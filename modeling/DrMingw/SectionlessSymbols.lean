import DrMingw.DbgHelpFallback
import DrMingw.NearestSymbol

/-! Symbols without a section, whose plain value takes part in the search for the nearest
one: which record the search names, and when that one is defined in a section. -/
namespace DrMingw
open WrappedCall
namespace PeImage

variable (b : Build) (image : Image) (base Addr : DWORD64)

/-- The body of the loop, with the number of the record whose name was copied last. -/
def considerRecord (i : DWORD) (best : Option DWORD × Nearest) : Option DWORD × Nearest :=
  let next := considerSymbol b image base Addr i best.2
  if next = best.2 then best else (some i,next)

/-- The loop with these numbers. -/
def scanRecords : ℕ → DWORD → Option DWORD × Nearest → Option (Option DWORD × Nearest)
  | 0, _, _ => none
  | fuel + 1, i, best =>
    if i < NumberOfSymbols image then
      let best := considerRecord b image base Addr i best
      if best.2.Displacement = 0 then some best
      else scanRecords fuel (nextSymbol b image i) best
    else some best

/-- The record whose name `pe_find_symbol` leaves in the buffer. -/
def namedRecord (nFileSize : ℕ) : Option DWORD :=
  if symbolTableExtendsBeyond b image nFileSize then none
  else (ImageBase image).bind fun base =>
    (scanRecords b image base Addr (2^32 + 1) 0 (none,{})).bind (·.1)

/-- The record the loop comes to at its turn `n`. -/
def place (n : ℕ) : DWORD := (nextSymbol b image)^[n] 0

/-- The loop goes on up to turn `n`. -/
def GoesOn (n : ℕ) : Prop :=
  ∀ m < n, place b image m < NumberOfSymbols image ∧ ¬Hits b image base Addr (place b image m)

/-- At turn `n` the loop reads the record of a function at or below the address. -/
structure Offers (n : ℕ) : Prop where
  goesOn : GoesOn b image base Addr n
  lt : place b image n < NumberOfSymbols image
  named : IsNamedFunction b image (place b image n)
  le : symbolAddr b image base (place b image n) ≤ Addr
  near : Addr - symbolAddr b image base (place b image n) ≠ 0xFFFFFFFFFFFFFFFF

/-- How far below the address the function read at turn `n` is. -/
def turnDistance (n : ℕ) : ℕ := distance b image base Addr (place b image n).toNat

/-- The record at turn `n` is defined in a section. -/
def Sectioned (n : ℕ) : Prop := 1 ≤ (SectionNumber b image (place b image n)).toInt

/-- Each function without a section that is offered has one with a section nearer to the
address, or as near and in front of it. -/
def SectionedNearer : Prop :=
  ∀ base, ImageBase image = some base → ∀ n, Offers b image base Addr n → ¬Sectioned b image n →
    ∃ m, Offers b image base Addr m ∧ Sectioned b image m ∧
      (turnDistance b image base Addr m < turnDistance b image base Addr n ∨
        turnDistance b image base Addr m = turnDistance b image base Addr n ∧ m < n)

/-- What is named is defined in a section. Where no such function is offered, a lookup that
finds the module and no DWARF symbol is left to `DbgHelp`. -/
structure NamesCode (e : Environment) (m : Module) (Offset : DWORD64) : Prop where
  sectioned : ∀ i ∈ namedRecord e.build m.image Offset m.nFileSize,
    1 ≤ (SectionNumber e.build m.image i).toInt
  fallsBack : (∀ base, ImageBase m.image = some base → ∀ n, Offers e.build m.image base Offset n →
      ¬Sectioned e.build m.image n) →
    ∀ (w : World) (d : DbgHelp) (s : MgwHelp) (hProcess : HANDLE) (Address : DWORD64)
      (Displacement : Option DWORD64) (Symbol : SymbolInfo WCHAR) (r : Registry),
      mgwhelp_find_module e.toSetting w hProcess Address s.registry = some (some (m,Offset),r) →
      (m.events e Address).bind dwarf_find_symbol = none →
      ∃ r', MgwSymFromAddrW e w d hProcess Address Displacement Symbol s.registry =
        some (d.SymFromAddrW hProcess Address
          (passedDisplacement e w s hProcess Address Displacement) Symbol,r')

variable {b image base Addr} {i : DWORD} {n nFileSize fuel : ℕ} {o : Option ℕ} {best : Nearest}
  {r : Option DWORD × Nearest}

theorem considerRecord_snd (i : DWORD) (best : Option DWORD × Nearest) :
    (considerRecord b image base Addr i best).2 = considerSymbol b image base Addr i best.2 := by
  simp only [considerRecord]
  split
  · next h => exact h.symm
  · rfl

theorem considerRecord_eq (i : DWORD) (best : Option DWORD × Nearest) :
    considerRecord b image base Addr i best =
      if IsNamedFunction b image i ∧ symbolAddr b image base i ≤ Addr ∧
          Addr - symbolAddr b image base i < best.2.Displacement then
        (some i,⟨some (symbolName b image i),Addr - symbolAddr b image base i⟩)
      else best := by
  simp only [considerRecord,considerSymbol_eq]
  split
  · next h =>
    rw [if_neg fun he => ?_]
    have hd := h.2.2
    rw [← he] at hd
    exact UInt64.lt_irrefl _ hd
  · rw [if_pos rfl]

/-- The numbers aside, it is the loop of `pe_find_symbol`. -/
theorem scanRecords_nearest (fuel : ℕ) (i : DWORD) (best : Option DWORD × Nearest) :
    (scanRecords b image base Addr fuel i best).map (·.2) =
      scanSymbols b image base Addr fuel i best.2 := by
  induction fuel generalizing i best with
  | zero => rfl
  | succ fuel ih =>
    simp only [scanRecords,scanSymbols,considerRecord_snd]
    split
    · split
      · rw [Option.map_some,considerRecord_snd]
      · rw [ih,considerRecord_snd]
        rfl
    · rfl

theorem place_succ (n : ℕ) : place b image (n + 1) = nextSymbol b image (place b image n) :=
  Function.iterate_succ_apply' _ n 0

theorem GoesOn.succ (h : GoesOn b image base Addr n) (hlt : place b image n < NumberOfSymbols image)
    (hh : ¬Hits b image base Addr (place b image n)) : GoesOn b image base Addr (n + 1) := by
  intro m hm
  rcases (Nat.le_of_lt_succ hm).lt_or_eq with hmn | rfl
  · exact h m hmn
  · exact ⟨hlt,hh⟩

/-- What the loop knows when the function of this turn is the nearest so far. -/
def recordOf (b : Build) (image : Image) (base Addr : DWORD64) (o : Option ℕ) :
    Option DWORD × Nearest :=
  (o.map (place b image),nearestOf b image base Addr (o.map fun n => (place b image n).toNat))

theorem recordOf_some (n : ℕ) : recordOf b image base Addr (some n) =
    (some (place b image n),⟨some (symbolName b image (place b image n)),
      Addr - symbolAddr b image base (place b image n)⟩) := by
  rw [recordOf,Option.map_some,Option.map_some,nearestOf_toNat]

/-- The loop takes the function it is offered, if that is nearer than the one so far. -/
theorem offered_iff (hgo : GoesOn b image base Addr n)
    (hlt : place b image n < NumberOfSymbols image) :
    (IsNamedFunction b image (place b image n) ∧ symbolAddr b image base (place b image n) ≤ Addr ∧
        Addr - symbolAddr b image base (place b image n) <
          (recordOf b image base Addr o).2.Displacement) ↔
      Offers b image base Addr n ∧
        ∀ c ∈ o, turnDistance b image base Addr n < turnDistance b image base Addr c := by
  have hnear : (∀ c ∈ o.map fun n => (place b image n).toNat,
      distance b image base Addr (place b image n).toNat < distance b image base Addr c) ↔
      ∀ c ∈ o, turnDistance b image base Addr n < turnDistance b image base Addr c := by
    simp [turnDistance]
  rw [recordOf,nearer_iff,hnear]
  constructor
  · intro h
    exact ⟨⟨hgo,hlt,h.1,h.2.1,h.2.2.1⟩,h.2.2.2⟩
  · intro h
    exact ⟨h.1.named,h.1.le,h.1.near,h.2⟩

/-- One turn adds the function it offers to those gone through. -/
theorem considerRecord_runningLeast (hgo : GoesOn b image base Addr n)
    (hlt : place b image n < NumberOfSymbols image)
    (h : RunningLeast {m | Offers b image base Addr m} (turnDistance b image base Addr) n o) :
    ∃ o', RunningLeast {m | Offers b image base Addr m} (turnDistance b image base Addr) (n + 1) o' ∧
      considerRecord b image base Addr (place b image n) (recordOf b image base Addr o) =
        recordOf b image base Addr o' := by
  have hle : ∀ m ∈ {m | Offers b image base Addr m}, m < n + 1 → m ≤ n :=
    fun m _ hm => Nat.le_of_lt_succ hm
  rw [considerRecord_eq]
  by_cases htaken : Offers b image base Addr n ∧
      ∀ c ∈ o, turnDistance b image base Addr n < turnDistance b image base Addr c
  · rw [if_pos ((offered_iff hgo hlt).mpr htaken)]
    exact ⟨some n,h.replace htaken.1 htaken.2 hle n.lt_succ_self,(recordOf_some n).symm⟩
  · rw [if_neg fun hc => htaken ((offered_iff hgo hlt).mp hc)]
    exact ⟨o,h.stay htaken hle n.lt_succ_self,rfl⟩

/-- The first of the nearest functions offered is read at this turn, or none is offered. -/
def IsNearest (b : Build) (image : Image) (base Addr : DWORD64) : Option ℕ → Prop
  | none => ∀ m, ¬Offers b image base Addr m
  | some c => FirstLeast {m | Offers b image base Addr m} (turnDistance b image base Addr) c

/-- No function is nearer than one at the address. -/
theorem isNearest_of_hit
    (h : RunningLeast {m | Offers b image base Addr m} (turnDistance b image base Addr) n o)
    (hz : (recordOf b image base Addr o).2.Displacement = 0) : IsNearest b image base Addr o := by
  cases o with
  | none => simp [recordOf,nearestOf] at hz
  | some c =>
    have hc : turnDistance b image base Addr c = 0 := by
      rw [recordOf_some] at hz
      rw [turnDistance,distance_toNat]
      exact congrArg UInt64.toNat hz
    exact h.firstLeast (.inr fun m _ => by omega)

/-- No function is offered behind the end of the table. -/
theorem isNearest_of_end
    (h : RunningLeast {m | Offers b image base Addr m} (turnDistance b image base Addr) n o)
    (hend : ¬place b image n < NumberOfSymbols image) : IsNearest b image base Addr o := by
  have hall : ∀ m, Offers b image base Addr m → m < n := by
    intro m hm
    by_contra hge
    rcases (Nat.le_of_not_lt hge).lt_or_eq with hnm | rfl
    · exact hend (hm.goesOn n hnm).1
    · exact hend hm.lt
  cases o with
  | none => exact fun m hm => h m hm (hall m hm)
  | some c => exact h.firstLeast (.inl hall)

/-- A scan that returns has named the first of the nearest functions offered, or there
are none. -/
theorem scanRecords_firstLeast (hgo : GoesOn b image base Addr n)
    (h : RunningLeast {m | Offers b image base Addr m} (turnDistance b image base Addr) n o)
    (hd : (recordOf b image base Addr o).2.Displacement ≠ 0)
    (hs : scanRecords b image base Addr fuel (place b image n) (recordOf b image base Addr o) =
      some r) :
    ∃ o', r = recordOf b image base Addr o' ∧ IsNearest b image base Addr o' := by
  induction fuel generalizing n o with
  | zero => simp [scanRecords] at hs
  | succ fuel ih =>
    rw [scanRecords] at hs
    by_cases hlt : place b image n < NumberOfSymbols image
    · obtain ⟨o',ho',heq⟩ := considerRecord_runningLeast hgo hlt h
      simp only [if_pos hlt,heq] at hs
      by_cases hz : (recordOf b image base Addr o').2.Displacement = 0
      · rw [if_pos hz] at hs
        exact ⟨o',(Option.some.inj hs).symm,isNearest_of_hit ho' hz⟩
      · have hhit : ¬Hits b image base Addr (place b image n) := by
          rwa [← considerSymbol_eq_zero hd,← considerRecord_snd,heq]
        rw [if_neg hz,← place_succ] at hs
        exact ih (hgo.succ hlt hhit) ho' hz hs
    · rw [if_neg hlt] at hs
      exact ⟨o,(Option.some.inj hs).symm,isNearest_of_end h hlt⟩

/-- The search names the first of the nearest functions offered, or none is offered. -/
theorem pe_find_symbol_named
    (h : pe_find_symbol b image nFileSize Addr = some (.scanned best)) :
    ∃ base o, ImageBase image = some base ∧ best = (recordOf b image base Addr o).2 ∧
      namedRecord b image Addr nFileSize = o.map (place b image) ∧
      IsNearest b image base Addr o := by
  rw [pe_find_symbol] at h
  split at h
  · simp at h
  · next hin =>
    cases hbase : ImageBase image with
    | none =>
      rw [hbase] at h
      dsimp only at h
      split at h <;> simp at h
    | some base =>
      rw [hbase] at h
      obtain ⟨best,hscan,rfl⟩ : ∃ last, scanSymbols b image base Addr (2^32 + 1) 0 {} = some last ∧
          last = best := by simpa using Option.map_eq_some_iff.mp h
      rw [← scanRecords_nearest (2^32 + 1) 0 (none,{})] at hscan
      obtain ⟨r,hr,rfl⟩ := Option.map_eq_some_iff.mp hscan
      have hstart : (recordOf b image base Addr none).2.Displacement ≠ 0 :=
        show (0xFFFFFFFFFFFFFFFF : DWORD64) ≠ 0 by decide
      have hnothing : RunningLeast {m | Offers b image base Addr m}
          (turnDistance b image base Addr) 0 none := fun m _ hm => absurd hm m.not_lt_zero
      obtain ⟨o,rfl,ho⟩ := scanRecords_firstLeast (fun m hm => absurd hm m.not_lt_zero) hnothing
        hstart hr
      refine ⟨base,o,rfl,rfl,?_,ho⟩
      rw [namedRecord,if_neg hin,hbase,Option.bind_some,hr,Option.bind_some]
      rfl

/-- A search that names nothing leaves the lookup to `DbgHelp`. -/
theorem falls_back {e : Environment} {w : World} {d : DbgHelp} {s : MgwHelp} {m : Module}
    {hProcess : HANDLE} {Address Offset : DWORD64} {Displacement : Option DWORD64}
    {Symbol : SymbolInfo WCHAR} {r : Registry}
    (hscan : pe_find_symbol e.build m.image m.nFileSize Offset = some (.scanned best))
    (hname : best.name = none)
    (hfind : mgwhelp_find_module e.toSetting w hProcess Address s.registry =
      some (some (m,Offset),r))
    (hdwarf : (m.events e Address).bind dwarf_find_symbol = none) :
    ∃ r', MgwSymFromAddrW e w d hProcess Address Displacement Symbol s.registry =
      some (d.SymFromAddrW hProcess Address
        (passedDisplacement e w s hProcess Address Displacement) Symbol,r') := by
  apply MgwSymFromAddrW_unanswered
  simp only [ownSymbol,hfind,hdwarf,hscan,Option.map_some,PeAnswer.name,hname,Option.map_none]

/-- Only code is named if and only if each function without a section has a nearer one
with a section. -/
theorem named_symbol_sectioned_iff {e : Environment} {m : Module} {Offset : DWORD64}
    (h : pe_find_symbol e.build m.image m.nFileSize Offset = some (.scanned best)) :
    best.name = (namedRecord e.build m.image Offset m.nFileSize).map (symbolName e.build m.image) ∧
      (NamesCode e m Offset ↔ SectionedNearer e.build m.image Offset) := by
  obtain ⟨base,o,hbase,rfl,hnamed,ho⟩ := pe_find_symbol_named h
  cases o with
  | none =>
    have hnone : (recordOf e.build m.image base Offset none).2.name = none := rfl
    refine ⟨by rw [hnamed,hnone]; rfl,?_,fun _ => ⟨by simp [hnamed],fun _ => ?_⟩⟩
    · intro _ base' hbase' n hn
      obtain rfl : base = base' := Option.some.inj (hbase.symm.trans hbase')
      exact absurd hn (ho n)
    · exact fun w d s hProcess Address Displacement Symbol r => falls_back h hnone
  | some c =>
    have hsec : 1 ≤ (SectionNumber e.build m.image (place e.build m.image c)).toInt ↔
        SectionedNearer e.build m.image Offset := by
      have hiff := ho.prop_iff (P:=Sectioned e.build m.image)
      refine hiff.trans ⟨fun hall base' hbase' => ?_,fun hall => hall base hbase⟩
      obtain rfl : base = base' := Option.some.inj (hbase.symm.trans hbase')
      exact hall
    refine ⟨by rw [hnamed,recordOf_some]; rfl,fun hc => hsec.mp (hc.sectioned _ hnamed),?_⟩
    refine fun hnear => ⟨?_,fun hno => absurd (hsec.mpr hnear) (hno base hbase c ho.mem)⟩
    rw [hnamed]
    simpa using hsec.mpr hnear

/-- A module with the image, in a process where it is the only thing. -/
def loneModule (image : Image) : Module where
  memory := ⟨.memory,0⟩
  Base := 0x10000
  LoadedImageName := []
  hFileMapping := ⟨.mapping,1⟩
  lpFileBase := ⟨.view,2⟩
  nFileSize := image.length
  image_base_vma := 0x140000000
  dbg := none
  file := 0
  image := image

theorem named_symbol_sectioned_twoFunctions :
    NamesCode bareEnvironment (loneModule twoFunctions) 0x140001050 := by
  have hscan : pe_find_symbol {} twoFunctions twoFunctions.length 0x140001050 =
      some (.scanned ⟨some [103],0x10⟩) := by decide +kernel
  refine (named_symbol_sectioned_iff (e:=bareEnvironment) (m:=loneModule twoFunctions) hscan).2.mpr
    fun base _ n hn hs => absurd ?_ hs
  rw [Sectioned]
  rcases twoFunctions_functions hn.lt hn.named.1 with h | h
  · exact h.symm ▸ by decide +kernel
  · exact h.symm ▸ by decide +kernel

/-- No section, and an undefined function `f`. -/
def undefinedFunction : Image :=
  imageHeaders 0 328 1 ++ symbolBytes [102] 0 0 0x20 0 ++ littleEndian 4 4

/-- Every address in the module is in `f`, 5 GiB behind its value of 0. -/
theorem undefined_function_named :
    pe_find_symbol {} undefinedFunction undefinedFunction.length 0x140001050 =
        some (.scanned ⟨some [102],0x140001050⟩) ∧
      ¬NamesCode bareEnvironment (loneModule undefinedFunction) 0x140001050 := by
  have hnamed : (0 : DWORD) ∈ namedRecord {} undefinedFunction 0x140001050
    undefinedFunction.length := by decide +kernel
  exact ⟨by decide +kernel,fun h => absurd (h.sectioned 0 hnamed) (by decide +kernel)⟩

end PeImage
end DrMingw
