import DrMingw.LoadAddress
import DrMingw.SymbolTableCheck

/-! The symbol nearest to an address: what `pe_find_symbol` answers over a table of
any content, and that the answer does not depend on where the module is loaded. -/
namespace DrMingw
namespace PeImage

variable (b : Build) (image : Image) (base Addr : DWORD64)

/-- The symbol table ends in the file. -/
def TableInside : Prop :=
  (PointerToSymbolTable image).toNat + 18 * (NumberOfSymbols image).toNat ≤ image.length

instance : Decidable (TableInside image) := inferInstanceAs (Decidable (_ ≤ _))

def SectionNumber (i : DWORD) : Int16 := (wordAt image (symbol b image i + 12)).toInt16

/-- `Value + ImageBase + VirtualAddress`, the address of a symbol defined in a section. -/
def definedAddress (i : DWORD) : DWORD64 :=
  (dwordAt image (symbol b image i + 8)).toUInt64 + base +
    (dwordAt image (sectionHeader b image ((SectionNumber b image i).toInt - 1) + 12)).toUInt64

/-- Every function of the table is defined in a section of the section table. -/
def FunctionsDefined : Prop :=
  ∀ i, IsPrimary b image i → ISFCN (wordAt image (symbol b image i + 14)) = true →
    1 ≤ (SectionNumber b image i).toInt ∧
      (SectionNumber b image i).toInt ≤ (NumberOfSections image).toNat

/-- A symbol that can be the answer for the address. The greatest distance there is
counts as none. -/
structure Candidate (i : DWORD) : Prop where
  primary : IsPrimary b image i
  named : IsNamedFunction b image i
  le : definedAddress b image base i ≤ Addr
  near : Addr - definedAddress b image base i ≠ 0xFFFFFFFFFFFFFFFF

/-- The buffer after the call, which the name may fill without a NUL. -/
def PeAnswer.pSymbolName (answer : PeAnswer) (MaxSymbolNameLen : ℕ) (buf : List CHAR) :
    List CHAR :=
  answer.name.elim buf fun name => strncpy name MaxSymbolNameLen

/-- `TRUE` is returned exactly if there is a candidate, and then with the name and the
distance of the first of the candidates with the greatest address; auxiliary records
are not read as symbols. -/
structure AnswersNearest : Prop where
  answers : ∃ best, pe_find_symbol b image image.length Addr = some (.scanned best) ∧
    (best.name.isSome = true ↔ ∃ i, Candidate b image base Addr i) ∧
    (best.name.isSome = true → ∃ i, Candidate b image base Addr i ∧
      (∀ n buf, (PeAnswer.scanned best).pSymbolName n buf = strncpy (symbolName b image i) n) ∧
      best.Displacement = Addr - definedAddress b image base i ∧
      ∀ j, Candidate b image base Addr j →
        definedAddress b image base j ≤ definedAddress b image base i ∧
          (definedAddress b image base j = definedAddress b image base i → i ≤ j))
  primaries : ∀ i, ReadsSymbol b image base Addr i → IsPrimary b image i

/-- No symbol up to the first one at the address itself announces so many auxiliary
records that the next index is 2^32 or more. -/
def IndexFits : Prop :=
  ∀ i, IsPrimary b image i → 2^32 ≤ nextRecord b image i.toNat →
    ∃ j ≤ i, IsPrimary b image j ∧ IsNamedFunction b image j ∧
      definedAddress b image base j = Addr

/-- The numbers of the symbols that may answer, with the addresses the loop computes. -/
def candidates : Set ℕ :=
  {n | ∃ i, i.toNat = n ∧ IsPrimary b image i ∧ IsNamedFunction b image i ∧
    symbolAddr b image base i ≤ Addr ∧ Addr - symbolAddr b image base i ≠ 0xFFFFFFFFFFFFFFFF}

/-- The distance of a symbol from the address. -/
def distance (n : ℕ) : ℕ := (Addr - symbolAddr b image base (UInt32.ofNat n)).toNat

/-- The nearest symbol so far is that with the number, or none. -/
def nearestOf (o : Option ℕ) : Nearest :=
  o.elim {} fun n => ⟨some (symbolName b image (UInt32.ofNat n)),
    Addr - symbolAddr b image base (UInt32.ofNat n)⟩

variable {b image base Addr} {i j : DWORD} {best : Nearest} {o : Option ℕ}

theorem nearestOf_toNat (i : DWORD) : nearestOf b image base Addr (some i.toNat) =
    ⟨some (symbolName b image i),Addr - symbolAddr b image base i⟩ := by
  simp [nearestOf]

theorem distance_toNat (i : DWORD) :
    distance b image base Addr i.toNat = (Addr - symbolAddr b image base i).toNat := by
  simp [distance]

/-- The members up to the next record are those up to this one. -/
theorem candidates_le (base Addr : DWORD64) (hi : IsPrimary b image i) :
    ∀ n ∈ candidates b image base Addr, n < nextRecord b image i.toNat → n ≤ i.toNat := by
  rintro n ⟨j,rfl,hj,-⟩ hlt
  by_contra hgt
  exact absurd (hi.2.next_le (lt_nextRecord b image) hj.2 (by omega)) (by omega)

/-- The greatest distance is that of no symbol found. -/
theorem lt_greatest_iff (x : DWORD64) : x < 0xFFFFFFFFFFFFFFFF ↔ x ≠ 0xFFFFFFFFFFFFFFFF := by
  have hlt := x.toNat_lt
  have hmax : (0xFFFFFFFFFFFFFFFF : DWORD64).toNat = 2^64 - 1 := rfl
  rw [UInt64.lt_iff_toNat_lt,ne_eq,← UInt64.toNat_inj,hmax]
  omega

theorem considerSymbol_eq (i : DWORD) (best : Nearest) :
    considerSymbol b image base Addr i best =
      if IsNamedFunction b image i ∧ symbolAddr b image base i ≤ Addr ∧
          Addr - symbolAddr b image base i < best.Displacement then
        ⟨some (symbolName b image i),Addr - symbolAddr b image base i⟩
      else best := by
  simp only [considerSymbol,IsNamedFunction]
  by_cases hf : ISFCN (wordAt image (symbol b image i + 14)) = true
  · simp only [hf,if_true,true_and]
    congr 1
    exact propext ⟨fun h => ⟨h.2.1,h.1,h.2.2⟩,fun h => ⟨h.2.1,h.1,h.2.2⟩⟩
  · simp [hf]

/-- A symbol is nearer than the one so far. -/
theorem nearer_iff :
    Addr - symbolAddr b image base i < (nearestOf b image base Addr o).Displacement ↔
      Addr - symbolAddr b image base i ≠ 0xFFFFFFFFFFFFFFFF ∧
        ∀ c ∈ o, distance b image base Addr i.toNat < distance b image base Addr c := by
  cases o with
  | none => simpa [nearestOf] using lt_greatest_iff _
  | some c =>
    rw [distance_toNat]
    have hiff : Addr - symbolAddr b image base i <
        (nearestOf b image base Addr (some c)).Displacement ↔
        ∀ c' ∈ some c, (Addr - symbolAddr b image base i).toNat < distance b image base Addr c' := by
      simp [nearestOf,distance,UInt64.lt_iff_toNat_lt]
    rw [hiff,iff_and_self,← hiff]
    intro hlt hmax
    rw [hmax,UInt64.lt_iff_toNat_lt] at hlt
    have hmost := (nearestOf b image base Addr (some c)).Displacement.toNat_lt
    have hall : (0xFFFFFFFFFFFFFFFF : DWORD64).toNat = 2^64 - 1 := rfl
    omega

/-- The loop takes a symbol that is a candidate nearer than the one so far. -/
theorem taken_iff (hi : IsPrimary b image i) :
    (IsNamedFunction b image i ∧ symbolAddr b image base i ≤ Addr ∧
        Addr - symbolAddr b image base i < (nearestOf b image base Addr o).Displacement) ↔
      i.toNat ∈ candidates b image base Addr ∧
        ∀ c ∈ o, distance b image base Addr i.toNat < distance b image base Addr c := by
  rw [nearer_iff]
  constructor
  · intro h
    exact ⟨⟨i,rfl,hi,h.1,h.2.1,h.2.2.1⟩,h.2.2.2⟩
  · rintro ⟨⟨j,hj,-,hnamed,haddr,hnear⟩,hall⟩
    obtain rfl : j = i := UInt32.toNat.inj hj
    exact ⟨hnamed,haddr,hnear,hall⟩

/-- One turn of the loop goes one member further. -/
theorem considerSymbol_runningLeast (hi : IsPrimary b image i)
    (h : RunningLeast (candidates b image base Addr) (distance b image base Addr) i.toNat o) :
    ∃ o', RunningLeast (candidates b image base Addr) (distance b image base Addr)
        (nextRecord b image i.toNat) o' ∧
      considerSymbol b image base Addr i (nearestOf b image base Addr o) =
        nearestOf b image base Addr o' := by
  have hle := candidates_le base Addr hi
  have hlt := lt_nextRecord b image i.toNat
  rw [considerSymbol_eq]
  by_cases htaken : i.toNat ∈ candidates b image base Addr ∧
      ∀ c ∈ o, distance b image base Addr i.toNat < distance b image base Addr c
  · rw [if_pos ((taken_iff hi).mpr htaken)]
    exact ⟨some i.toNat,h.replace htaken.1 htaken.2 hle hlt,(nearestOf_toNat i).symm⟩
  · rw [if_neg fun hc => htaken ((taken_iff hi).mp hc)]
    exact ⟨o,h.stay htaken hle hlt,rfl⟩

/-- What holds whenever the loop gets to its test, if the index fits. -/
theorem reached_runningLeast
    (hfit : ∀ i, PassesSymbol b image base Addr i → nextRecord b image i.toNat < 2^32)
    (hr : Reached b image base Addr i best) :
    Walk.Visits (nextRecord b image) i.toNat ∧ ∃ o,
      RunningLeast (candidates b image base Addr) (distance b image base Addr) i.toNat o ∧
        best = nearestOf b image base Addr o := by
  induction hr with
  | start => exact ⟨Walk.visits_zero,none,fun n _ hn => absurd hn (Nat.not_lt_zero n),rfl⟩
  | @next i best hr hi hd ih =>
    obtain ⟨hv,o,ho,rfl⟩ := ih
    have hnat := toNat_nextSymbol (hfit i ⟨hi,_,hr,hd⟩)
    obtain ⟨o',ho',heq⟩ := considerSymbol_runningLeast ⟨hi,hv⟩ ho
    rw [hnat]
    exact ⟨hv.next,o',ho',heq⟩

/-- With an index that fits the scan ends with the nearest of all candidates. -/
theorem scanSymbols_nearest
    (hfit : ∀ i, PassesSymbol b image base Addr i → nextRecord b image i.toNat < 2^32) :
    ∃ o, scanSymbols b image base Addr (2^32 + 1) 0 {} = some (nearestOf b image base Addr o) ∧
      match o with
      | none => candidates b image base Addr = ∅
      | some c => FirstLeast (candidates b image base Addr) (distance b image base Addr) c := by
  have hN := (NumberOfSymbols image).toNat_lt
  have hsome : (scanSymbols b image base Addr (2^32 + 1) 0 {}).isSome = true :=
    scanSymbols_isSome hfit .start (by omega) (by omega)
  obtain ⟨last,hlast⟩ := Option.isSome_iff_exists.mp hsome
  obtain ⟨j,best,hr,hend⟩ := scanSymbols_ends .start hlast
  obtain ⟨hv,o,ho,rfl⟩ := reached_runningLeast hfit hr
  rcases hend with ⟨hj,rfl⟩ | ⟨hj,rfl,hz⟩
  · -- Every primary record lies in front of the place where the table ends.
    have hall : ∀ n ∈ candidates b image base Addr, n < j.toNat := by
      rintro n ⟨i,rfl,hi,-⟩
      have hin := UInt32.lt_iff_toNat_lt.mp hi.1
      have hjn : (NumberOfSymbols image).toNat ≤ j.toNat :=
        Nat.le_of_not_lt fun h => hj (UInt32.lt_iff_toNat_lt.mpr h)
      omega
    refine ⟨o,hlast,?_⟩
    cases o with
    | none => exact Set.eq_empty_of_forall_notMem fun n hn => ho n hn (hall n hn)
    | some c => exact ho.firstLeast (.inl hall)
  · obtain ⟨o',ho',heq⟩ := considerSymbol_runningLeast ⟨hj,hv⟩ ho
    rw [heq] at hlast hz
    refine ⟨o',hlast,?_⟩
    cases o' with
    | none => simp [nearestOf] at hz
    | some c =>
      have hc : distance b image base Addr c = 0 := congrArg UInt64.toNat hz
      exact ho'.firstLeast (.inr fun n _ => by omega)

/-- The address the loop computes for a function defined in a section. -/
theorem symbolAddr_eq (hdef : FunctionsDefined b image) (hi : IsPrimary b image i)
    (hf : IsNamedFunction b image i) :
    symbolAddr b image base i = definedAddress b image base i := by
  have hs : 0 < SectionNumber b image i := Int16.lt_iff_toInt_lt.mpr (hdef i hi hf.1).1
  exact (if_pos hs).trans (UInt64.add_assoc ..).symm

theorem hits_iff (hdef : FunctionsDefined b image) (hi : IsPrimary b image i) :
    Hits b image base Addr i ↔
      IsNamedFunction b image i ∧ definedAddress b image base i = Addr :=
  and_congr_right fun hf => by rw [symbolAddr_eq hdef hi hf]

theorem mem_candidates (hdef : FunctionsDefined b image) :
    i.toNat ∈ candidates b image base Addr ↔ Candidate b image base Addr i := by
  constructor
  · rintro ⟨j,hj,hp,hf,hle,hnear⟩
    obtain rfl : j = i := UInt32.toNat.inj hj
    rw [symbolAddr_eq hdef hp hf] at hle hnear
    exact ⟨hp,hf,hle,hnear⟩
  · rintro ⟨hp,hf,hle,hnear⟩
    rw [← symbolAddr_eq hdef hp hf] at hle hnear
    exact ⟨i,rfl,hp,hf,hle,hnear⟩

/-- Before the first hit the index is that of a place on the walk. -/
theorem reached_before_hit (hdef : FunctionsDefined b image)
    (hfit : IndexFits b image base Addr) (hr : Reached b image base Addr i best) :
    Walk.Visits (nextRecord b image) i.toNat ∧ best.Displacement ≠ 0 ∧
      ∀ j, IsPrimary b image j → j < i → ¬Hits b image base Addr j := by
  induction hr with
  | start =>
    exact ⟨Walk.visits_zero,by decide,fun j _ hj => absurd hj (UInt32.not_lt_zero)⟩
  | @next i best hr hi hd ih =>
    obtain ⟨hv,hbest,hno⟩ := ih
    have hnohit : ∀ j, IsPrimary b image j → j ≤ i → ¬Hits b image base Addr j := by
      intro j hj hle
      rw [UInt32.le_iff_toNat_le] at hle
      rcases hle.lt_or_eq with hlt | heq
      · exact hno j hj (UInt32.lt_iff_toNat_lt.mpr hlt)
      · obtain rfl : j = i := UInt32.toNat.inj heq
        rwa [ne_eq,considerSymbol_eq_zero hbest] at hd
    have hlt : nextRecord b image i.toNat < 2^32 := by
      by_contra hge
      obtain ⟨j,hle,hj,hh⟩ := hfit i ⟨hi,hv⟩ (Nat.le_of_not_lt hge)
      exact hnohit j hj hle ((hits_iff hdef hj).mpr hh)
    have hnat := toNat_nextSymbol hlt
    refine ⟨hnat ▸ hv.next,hd,fun j hj hji => hnohit j hj ?_⟩
    rw [UInt32.lt_iff_toNat_lt,hnat] at hji
    rw [UInt32.le_iff_toNat_le]
    by_contra hgt
    have hle := hv.next_le (lt_nextRecord b image) hj.2 (Nat.lt_of_not_le hgt)
    omega

theorem passes_fits (hdef : FunctionsDefined b image) (hfit : IndexFits b image base Addr)
    (hp : PassesSymbol b image base Addr i) : nextRecord b image i.toNat < 2^32 := by
  obtain ⟨hi,best,hr,hd⟩ := hp
  obtain ⟨hv,hbest,hno⟩ := reached_before_hit hdef hfit hr
  by_contra hge
  obtain ⟨j,hle,hj,hh⟩ := hfit i ⟨hi,hv⟩ (Nat.le_of_not_lt hge)
  have hhit := (hits_iff hdef hj).mpr hh
  rw [UInt32.le_iff_toNat_le] at hle
  rcases hle.lt_or_eq with hlt | heq
  · exact hno j hj (UInt32.lt_iff_toNat_lt.mpr hlt) hhit
  · obtain rfl : j = i := UInt32.toNat.inj heq
    exact hd ((considerSymbol_eq_zero hbest).mpr hhit)

/-- A table that ends in the file passes the check. -/
theorem TableInside.passes (hin : TableInside image) :
    symbolTableExtendsBeyond b image image.length = false := by
  have hle : symbolTableEnd b (PointerToSymbolTable image) (NumberOfSymbols image) ≤
      image.length := by
    simp only [symbolTableEnd,TableInside] at hin ⊢
    split
    · omega
    · exact (Nat.mod_le _ _).trans (by omega)
  simpa [symbolTableExtendsBeyond_eq] using hle

/-- The first of the nearest candidates is the one with the greatest address. -/
theorem firstLeast_candidate (hdef : FunctionsDefined b image)
    (h : FirstLeast (candidates b image base Addr) (distance b image base Addr) i.toNat) :
    Candidate b image base Addr i ∧ ∀ j, Candidate b image base Addr j →
      definedAddress b image base j ≤ definedAddress b image base i ∧
        (definedAddress b image base j = definedAddress b image base i → i ≤ j) := by
  have hi := (mem_candidates hdef).mp h.mem
  have hdist : ∀ j, Candidate b image base Addr j → distance b image base Addr j.toNat =
      Addr.toNat - (definedAddress b image base j).toNat := by
    intro j hj
    rw [distance_toNat,symbolAddr_eq hdef hj.primary hj.named,UInt64.toNat_sub_of_le _ _ hj.le]
  refine ⟨hi,fun j hj => ⟨?_,fun he => ?_⟩⟩
  · have hle := h.least _ ((mem_candidates hdef).mpr hj)
    have hj' := UInt64.le_iff_toNat_le.mp hj.le
    rw [hdist i hi,hdist j hj] at hle
    rw [UInt64.le_iff_toNat_le]
    omega
  · rw [UInt32.le_iff_toNat_le]
    exact h.first _ ((mem_candidates hdef).mpr hj) (by rw [hdist i hi,hdist j hj,he])

/-- While the index fits, the nearest symbol is found. -/
theorem answersNearest_of_fits (hin : TableInside image) (hbase : ImageBase image = some base)
    (hdef : FunctionsDefined b image) (hfit : IndexFits b image base Addr) :
    AnswersNearest b image base Addr := by
  obtain ⟨o,hscan,ho⟩ := scanSymbols_nearest fun i hp => passes_fits hdef hfit hp
  have hfind : pe_find_symbol b image image.length Addr =
      some (.scanned (nearestOf b image base Addr o)) := by
    rw [pe_find_symbol,if_neg (by simp [hin.passes]),hbase]
    exact congrArg (Option.map PeAnswer.scanned) hscan
  have hprim : ∀ i, ReadsSymbol b image base Addr i → IsPrimary b image i :=
    fun i hr => ⟨hr.1,hr.2.elim fun _ hb => (reached_before_hit hdef hfit hb).1⟩
  cases o with
  | none =>
    have hnone : ¬∃ i, Candidate b image base Addr i := by
      rintro ⟨i,hi⟩
      exact Set.notMem_empty _ (ho ▸ (mem_candidates hdef).mpr hi)
    exact ⟨⟨_,hfind,by simp [nearestOf,hnone],by simp [nearestOf]⟩,hprim⟩
  | some c =>
    obtain ⟨i,rfl,-⟩ := id ho.mem
    obtain ⟨hi,hbest⟩ := firstLeast_candidate hdef ho
    rw [nearestOf_toNat,symbolAddr_eq hdef hi.primary hi.named] at hfind
    exact ⟨⟨_,hfind,by simpa using ⟨i,hi⟩,fun _ => ⟨i,hi,fun _ _ => rfl,rfl,hbest⟩⟩,hprim⟩

/-- Once the index has wrapped, an auxiliary record is read or the search never ends. -/
theorem not_answersNearest_of_wrap (hbase : ImageBase image = some base)
    (hno : ∀ j, IsPrimary b image j → j ≤ i → ¬Hits b image base Addr j)
    (hi : IsPrimary b image i) (hwrap : 2^32 ≤ nextRecord b image i.toNat) :
    ¬AnswersNearest b image base Addr := by
  rintro ⟨⟨best,hfind,-,-⟩,hprim⟩
  obtain ⟨-,best',hr,hd⟩ := passes_of_primary hno hi
  have hin := i.toNat_lt
  have hiN := UInt32.lt_iff_toNat_lt.mp hi.1
  have hle := nextRecord_le b image i.toNat
  have hnat : (nextSymbol b image i).toNat = nextRecord b image i.toNat - 2^32 := by
    rw [nextSymbol_eq,UInt32.toNat_ofNat']
    omega
  have hlt : nextSymbol b image i < NumberOfSymbols image := by
    rw [UInt32.lt_iff_toNat_lt]
    omega
  have hback : IsPrimary b image (nextSymbol b image i) := hprim _ ⟨hlt,_,hr.next hi.1 hd⟩
  have hstart : IsPrimary b image 0 :=
    ⟨UInt32.lt_of_le_of_lt (UInt32.zero_le) hlt,Walk.visits_zero⟩
  have hscan : scanSymbols b image base Addr (2^32 + 1) 0 {} = none :=
    scanSymbols_cycle hno hi hback (by rw [UInt32.le_iff_toNat_le]; omega) hstart
      (UInt32.zero_le) (by decide)
  rw [pe_find_symbol] at hfind
  split at hfind
  · simp at hfind
  · rw [hbase] at hfind
    have hnone := congrArg (Option.map PeAnswer.scanned) hscan
    exact absurd (hnone.symm.trans hfind) (by simp)

/-- The nearest symbol is found for exactly the addresses for which the index fits,
and the COFF answer of `MgwSymFromAddrW` for an address in a module is the same
wherever the module is loaded. -/
theorem nearest_symbol_iff (hin : TableInside image) (hbase : ImageBase image = some base)
    (hdef : FunctionsDefined b image) :
    (∀ Addr, AnswersNearest b image base Addr ↔ IndexFits b image base Addr) ∧
      ∀ (e : Environment) (rva : DWORD64) (l l' : CoffLookup e image rva) (d : DbgHelp)
        (Displacement : Option DWORD64) (Symbol : SymbolInfo WCHAR),
        l.answer d Displacement Symbol = l'.answer d Displacement Symbol := by
  refine ⟨fun Addr => ⟨fun ha i hi hwrap => ?_,answersNearest_of_fits hin hbase hdef⟩,
    fun e rva l l' d Displacement Symbol => ?_⟩
  · by_contra hno
    refine not_answersNearest_of_wrap hbase (fun j hj hle hh => hno ?_) hi hwrap ha
    obtain ⟨hnamed,hat⟩ := (hits_iff hdef hj).mp hh
    exact ⟨j,hle,hj,hnamed,hat⟩
  · obtain ⟨size,vma,hsize,hvma,ha⟩ := l.answer_eq d Displacement Symbol
    obtain ⟨size',vma',hsize',hvma',ha'⟩ := l'.answer_eq d Displacement Symbol
    obtain rfl : size = size' := Option.some.inj (hsize.symm.trans hsize')
    obtain rfl : vma = vma' := Option.some.inj (hvma.symm.trans hvma')
    rw [ha,ha']

/-- One section, and in it `f` at 0x10 with an auxiliary record and `g` at 0x40. -/
def twoFunctions : Image :=
  imageHeaders 1 368 3 ++ sectionBytes [46,116] 0x100 0x1000 0 0 ++ symbolBytes [102] 0x10 1 0x20 1 ++
    List.replicate 18 0xFF ++ symbolBytes [103] 0x40 1 0x20 0

/-- The second record is auxiliary, and no function. -/
theorem twoFunctions_functions {i : DWORD} (hi : i < NumberOfSymbols twoFunctions)
    (hf : ISFCN (wordAt twoFunctions (symbol {} twoFunctions i + 14)) = true) : i = 0 ∨ i = 2 := by
  have hN : (NumberOfSymbols twoFunctions).toNat = 3 := by decide +kernel
  have hlt := UInt32.lt_iff_toNat_lt.mp hi
  have hcases : i = 0 ∨ i = 1 ∨ i = 2 := by
    simp only [← UInt32.toNat_inj,UInt32.reduceToNat]
    omega
  rcases hcases with rfl | rfl | rfl
  · exact .inl rfl
  · exact absurd hf (by decide +kernel)
  · exact .inr rfl

/-- A system in which every file is this image, and regions start at multiples of 64K. -/
def twoFunctionsWorld : World :=
  { bareWorld with
    contents := fun _ => twoFunctions
    GetModuleFileNameExW := fun _ _ => some (wide "two.exe") }

/-- The module found is this image, without debug information. -/
def findsTwoFunctions (s : Option MgwHelp) (address : DWORD64) : Bool :=
  match s.bind fun s =>
    mgwhelp_find_module bareEnvironment.toSetting twoFunctionsWorld 1 address s.registry with
  | some (some (m,_),_) => m.image = twoFunctions && m.dbg.isNone
  | _ => false

theorem exists_lookup (Base : DWORD64)
    (hb : GetModuleBase bareEnvironment.toSetting twoFunctionsWorld 1 (Base + 0x1050) = Base)
    (hf : findsTwoFunctions (mgwhelpAfter bareEnvironment [bareRequest (.SymInitialize 1)])
      (Base + 0x1050) = true) :
    ∃ l : CoffLookup bareEnvironment twoFunctions 0x1050, l.Base = Base := by
  simp only [findsTwoFunctions] at hf
  split at hf
  · next m Offset r heq =>
    obtain ⟨s,hs,hfound⟩ := Option.bind_eq_some_iff.mp heq
    obtain ⟨himage,hdbg⟩ : m.image = twoFunctions ∧ m.dbg = none := by simpa using hf
    exact ⟨⟨_,s,hs,_,1,Base,m,Offset,r,hb,hfound,himage,by simp [Module.events,hdbg]⟩,rfl⟩
  · simp at hf

theorem nearest_symbol_twoFunctions :
    TableInside twoFunctions ∧ FunctionsDefined {} twoFunctions ∧
      (∀ Addr, AnswersNearest {} twoFunctions 0x140000000 Addr) ∧
      ∃ l l' : CoffLookup bareEnvironment twoFunctions 0x1050, l.Base = 0x10000 ∧
        l'.Base = 0x20000 ∧ ∀ d Displacement Symbol,
          l.answer d Displacement Symbol = l'.answer d Displacement Symbol := by
  have hin : TableInside twoFunctions := by decide +kernel
  have hN : (NumberOfSymbols twoFunctions).toNat = 3 := by decide +kernel
  have hdef : FunctionsDefined {} twoFunctions := by
    intro i hi hf
    rcases twoFunctions_functions hi.1 hf with rfl | rfl
    · decide +kernel
    · decide +kernel
  have hfits : ∀ Addr, IndexFits {} twoFunctions 0x140000000 Addr := by
    intro Addr i hi hwrap
    have hlt := UInt32.lt_iff_toNat_lt.mp hi.1
    have hle := nextRecord_le {} twoFunctions i.toNat
    omega
  have hbase : ImageBase twoFunctions = some 0x140000000 := by decide +kernel
  have hboth := nearest_symbol_iff hin hbase hdef
  obtain ⟨l,hl⟩ := exists_lookup 0x10000 (by decide +kernel) (by decide +kernel)
  obtain ⟨l',hl'⟩ := exists_lookup 0x20000 (by decide +kernel) (by decide +kernel)
  exact ⟨hin,hdef,fun Addr => (hboth.1 Addr).mpr (hfits Addr),l,l',hl,hl',
    hboth.2 bareEnvironment 0x1050 l l'⟩

example : pe_find_symbol {} twoFunctions twoFunctions.length 0x140001050 =
    some (.scanned ⟨some [103],0x10⟩) := by decide +kernel

/-- A file of 2^32 - 1 symbols without functions, the last of which announces 255
auxiliary records. -/
def wrappingImage : Image :=
  tableImage 64 512 0xFFFFFFFF (512 + 18 * 0xFFFFFFFF) (512 + 18 * 0xFFFFFFFF - 1)

theorem wrappingImage_placed : Placed 64 (512 + 18 * 0xFFFFFFFF) (512 + 18 * 0xFFFFFFFF - 1) :=
  ⟨.inr rfl,by omega,.inl (by omega)⟩

theorem wrappingImage_inside : TableInside wrappingImage := by
  have hlen : wrappingImage.length = 512 + 18 * 0xFFFFFFFF := length_tableImage
  rw [TableInside,hlen,wrappingImage,PointerToSymbolTable_tableImage wrappingImage_placed,
    NumberOfSymbols_tableImage wrappingImage_placed]
  rfl

/-- The types of its symbols are all 0. -/
theorem wrappingImage_functions : FunctionsDefined {} wrappingImage := by
  intro i hi hf
  have hsym : symbol {} wrappingImage i = 512 + 18 * i.toNat := by
    rw [symbol_eq (.inl rfl),wrappingImage,PointerToSymbolTable_tableImage wrappingImage_placed]
    rfl
  have hzero : ∀ k : ℤ, 0 ≤ k → k < 16 → byteAt wrappingImage (512 + 18 * i.toNat + k) = 0 := by
    intro k h₀ hk
    exact byteAt_tableImage_zero (by omega) (by omega) (by omega)
  have htype : wordAt wrappingImage (symbol {} wrappingImage i + 14) = 0 := by
    apply UInt16.toNat.inj
    rw [wordAt_toNat,hsym,add_assoc _ (14 : ℤ) 1,hzero 14 (by omega) (by omega),
      hzero (14 + 1) (by omega) (by omega)]
    rfl
  rw [htype] at hf
  exact absurd hf (by decide)

/-- Its symbols are all records of their own. -/
theorem wrappingImage_primary {i : DWORD} (hi : i < 0xFFFFFFFF) : IsPrimary {} wrappingImage i := by
  have hlt := UInt32.lt_iff_toNat_lt.mp hi
  have hP : (512 : DWORD).toNat = 512 := rfl
  have hN : (0xFFFFFFFF : DWORD).toNat = 0xFFFFFFFF := rfl
  exact isPrimary_tableImage wrappingImage_placed hi (.inl rfl) (fun n hn => by omega)
    (.inl (by decide))

/-- The index goes back to 254 from the last symbol, and the search does not return. -/
theorem wrapping_search_hangs :
    TableInside wrappingImage ∧ ImageBase wrappingImage = some 0 ∧
      FunctionsDefined {} wrappingImage ∧
      pe_find_symbol {} wrappingImage wrappingImage.length 0xFFFFFFFFFFFFFFFF = none ∧
      ¬AnswersNearest {} wrappingImage 0 0xFFFFFFFFFFFFFFFF := by
  have hbase : ImageBase wrappingImage = some 0 := ImageBase_tableImage wrappingImage_placed
  have hlast := wrappingImage_primary (i:=0xFFFFFFFF - 1) (by decide)
  have hback : nextSymbol {} wrappingImage (0xFFFFFFFF - 1) = 254 := by
    have hnext := (passes_wrapping (b:={}) (P:=512) (N:=0xFFFFFFFF) wrappingImage_placed rfl
      (by decide) (by decide)).2
    rw [nextSymbol_eq]
    exact (congrArg UInt32.ofNat hnext).trans (by decide)
  have hscan : scanSymbols {} wrappingImage 0 0xFFFFFFFFFFFFFFFF (2^32 + 1) 0 {} = none :=
    scanSymbols_cycle (fun j _ _ => not_hits_last j) hlast
      (hback ▸ wrappingImage_primary (by decide)) (hback ▸ by decide)
      (wrappingImage_primary (by decide)) (by decide) (by decide)
  have hfind : pe_find_symbol {} wrappingImage wrappingImage.length 0xFFFFFFFFFFFFFFFF = none := by
    rw [pe_find_symbol,if_neg (by simp [wrappingImage_inside.passes]),hbase]
    exact congrArg (Option.map PeAnswer.scanned) hscan
  refine ⟨wrappingImage_inside,hbase,wrappingImage_functions,hfind,?_⟩
  rintro ⟨⟨best,hsome,-,-⟩,-⟩
  simp [hfind] at hsome

end PeImage
end DrMingw
