import Mathlib.Data.List.DropRight
import DrMingw.CStrings
import DrMingw.DwarfPe
import DrMingw.ReportDestination

/-! The report file of a program that names none: its module path, fetched into a buffer
that grows until the path fits, with the extension replaced. -/
namespace DrMingw
namespace ReportDestination

/-- `std::vector::resize`: cut, or lengthened by zeros. -/
def resize (n : ℕ) (path : List WCHAR) : List WCHAR :=
  path.take n ++ List.replicate (n - path.length) 0

/-- The part before the last `'.'`, if there is any. -/
def cutExtension (path : List WCHAR) : List WCHAR :=
  let found := path.reverse.findIdx (· = 46)
  if found ≠ path.length then path.take (path.length - found - 1) else path

section Setup

variable (GetModuleFileNameW : List WCHAR → DWORD → DWORD × List WCHAR)

/-- The buffer is doubled for as long as it is filled to its size. -/
def fetchPath : ℕ → DWORD → List WCHAR → Option (DWORD × DWORD × List WCHAR)
  | 0,_,_ => none
  | fuel + 1,nSize,path =>
    let r := GetModuleFileNameW path nSize
    if r.1 = nSize then fetchPath fuel (nSize * 2) (resize (nSize * 2).toNat r.2)
    else some (r.1,nSize,r.2)

/-- The log file name that `Setup` stores. -/
def Setup (fuel : ℕ) : Option (List WCHAR) :=
  (fetchPath GetModuleFileNameW fuel (UInt32.ofNat MAX_PATH) (List.replicate MAX_PATH 0)).map
    fun (dwRet,nSize,path) =>
      if dwRet ≠ 0 then cutExtension (resize nSize.toNat path) ++ wide ".RPT"
      else wide "EXCHNDL.RPT"

end Setup

/-- A module, with the answers that `GetModuleFileNameW` gives about it: the path and its
NUL where they fit, and the size of the buffer where they do not. -/
structure ModuleFileName where
  path : List WCHAR
  path_ne : path ≠ []
  noNul : 0 ∉ path
  GetModuleFileNameW : List WCHAR → DWORD → DWORD × List WCHAR
  whole : ∀ buf nSize, buf.length = nSize.toNat → path.length < nSize.toNat →
    GetModuleFileNameW buf nSize =
      (UInt32.ofNat path.length,path ++ 0::buf.drop (path.length + 1))
  truncated : ∀ buf nSize, buf.length = nSize.toNat → nSize.toNat ≤ path.length →
    (GetModuleFileNameW buf nSize).1 = nSize ∧
      (GetModuleFileNameW buf nSize).2.length = buf.length

/-- The report beside the program: in the directory part, the last component with its
extension replaced, if it has one. -/
def besideProgram (path : List WCHAR) : List WCHAR :=
  imageDir path ++ (if 46 ∈ getBaseNameW path then ((getBaseNameW path).rdropWhile (· ≠ 46)).dropLast
    else getBaseNameW path) ++ wide ".RPT"

/-- `Setup` stores a name for which the first exception opens the report beside the
program, and no other file. -/
def ReportsBeside (m : ModuleFileName) : Prop :=
  ∃ fuel name, Setup m.GetModuleFileNameW fuel = some name ∧
    (∀ a, (openReportFile a { g_szLogFileName := name }).2 =
      [.CreateFileW (besideProgram m.path) (a.CreateFileW (besideProgram m.path))]) ∧
    besideProgram m.path ≠ m.path

/-- The last component has an extension other than `RPT`, and the path fits before the
size of the buffer passes 2^32. -/
structure HasExtension (path : List WCHAR) : Prop where
  fits : path.length < 260 * 2^23
  dot : 46 ∈ getBaseNameW path
  other : ¬wide ".RPT" <:+ path

/-- Behind the path and its NUL the buffer holds zeros. -/
def Padded (path buf : List WCHAR) : Prop := ∀ c ∈ buf.drop (path.length + 1), c = 0

variable {m : ModuleFileName} {path pre ext buf : List WCHAR} {fuel : ℕ} {nSize : DWORD}

theorem resize_self (path : List WCHAR) : resize path.length path = path := by
  simp [resize]

theorem resize_length (n : ℕ) (path : List WCHAR) : (resize n path).length = n := by
  rw [resize,List.length_append,List.length_take,List.length_replicate]
  omega

theorem cutExtension_of_notMem (h : 46 ∉ path) : cutExtension path = path := by
  have hfound : path.reverse.findIdx (· = 46) = path.length := by
    rw [← path.length_reverse,List.findIdx_eq_length]
    intro c hc
    refine decide_eq_false ?_
    rintro rfl
    exact h (List.mem_reverse.mp hc)
  simp [cutExtension,hfound]

theorem cutExtension_append (h : 46 ∉ ext) : cutExtension (pre ++ 46::ext) = pre := by
  have hfound : (pre ++ 46::ext).reverse.findIdx (· = 46) = ext.length := by
    have hnone : ext.reverse.findIdx (· = 46) = ext.reverse.length :=
      List.findIdx_eq_length.mpr fun c hc => decide_eq_false fun he =>
        h (he ▸ List.mem_reverse.mp hc)
    rw [List.reverse_append,List.reverse_cons,List.append_assoc,List.findIdx_append,hnone]
    simp [List.findIdx_cons]
  have hcut : pre.length + (ext.length + 1) - ext.length - 1 = pre.length := by omega
  rw [cutExtension,hfound,List.length_append,List.length_cons,if_pos (by omega),hcut]
  exact List.take_left

theorem padded_resize (h : buf.length ≤ path.length) (n : ℕ) : Padded path (resize n buf) := by
  intro c hc
  have hcut : (buf.take n).length ≤ path.length + 1 := by
    rw [List.length_take]
    omega
  rw [resize,List.drop_append,List.drop_eq_nil_of_le hcut,List.nil_append] at hc
  exact List.eq_of_mem_replicate (List.mem_of_mem_drop hc)

theorem length_ne_size (h : path.length < nSize.toNat) : UInt32.ofNat path.length ≠ nSize := by
  intro he
  have hlt := nSize.toNat_lt
  have hval := congrArg UInt32.toNat he
  rw [UInt32.toNat_ofNat_of_lt' (h.trans hlt)] at hval
  omega

theorem fetchPath_whole (hlen : buf.length = nSize.toNat) (hfits : m.path.length < nSize.toNat) :
    fetchPath m.GetModuleFileNameW (fuel + 1) nSize buf =
      some (UInt32.ofNat m.path.length,nSize,m.path ++ 0::buf.drop (m.path.length + 1)) := by
  rw [fetchPath,m.whole buf nSize hlen hfits]
  exact if_neg (length_ne_size hfits)

theorem fetchPath_truncated (fuel : ℕ) (hlen : buf.length = nSize.toNat)
    (hlong : nSize.toNat ≤ m.path.length) :
    ∃ buf', buf'.length ≤ m.path.length ∧ fetchPath m.GetModuleFileNameW (fuel + 1) nSize buf =
      fetchPath m.GetModuleFileNameW fuel (nSize * 2) (resize (nSize * 2).toNat buf') := by
  have htrunc := m.truncated buf nSize hlen hlong
  refine ⟨(m.GetModuleFileNameW buf nSize).2,by omega,?_⟩
  rw [fetchPath]
  exact if_pos htrunc.1

/-- Once the path fits, it stands in the buffer with zeros up to the end. -/
theorem fetchPath_some (hlen : buf.length = nSize.toNat) (hpad : Padded m.path buf)
    {r : DWORD × DWORD × List WCHAR} (h : fetchPath m.GetModuleFileNameW fuel nSize buf = some r) :
    ∃ n : DWORD, m.path.length < n.toNat ∧ r = (UInt32.ofNat m.path.length,n,
      m.path ++ List.replicate (n.toNat - m.path.length) 0) := by
  induction fuel generalizing nSize buf with
  | zero => simp [fetchPath] at h
  | succ fuel ih =>
    rcases Nat.lt_or_ge m.path.length nSize.toNat with hfits | hlong
    · rw [fetchPath_whole hlen hfits] at h
      refine ⟨nSize,hfits,?_⟩
      have hzeros : buf.drop (m.path.length + 1) =
          List.replicate (nSize.toNat - m.path.length - 1) 0 :=
        List.eq_replicate_iff.mpr ⟨by rw [List.length_drop]; omega,hpad⟩
      have hnul : nSize.toNat - m.path.length = nSize.toNat - m.path.length - 1 + 1 := by omega
      rw [← Option.some.inj h,hzeros,← List.replicate_succ,← hnul]
    · obtain ⟨buf',hbuf,hstep⟩ := fetchPath_truncated fuel hlen hlong
      exact ih (resize_length _ _) (padded_resize hbuf _) (hstep ▸ h)

/-- The buffer grows to the path, unless its size wraps first. -/
theorem fetchPath_isSome (d : ℕ) (hlen : buf.length = nSize.toNat)
    (hsize : nSize.toNat * 2^d < 2^32) (hfits : m.path.length < nSize.toNat * 2^d) :
    (fetchPath m.GetModuleFileNameW (d + 1) nSize buf).isSome := by
  induction d generalizing nSize buf with
  | zero =>
    rw [fetchPath_whole hlen (by simpa using hfits)]
    rfl
  | succ d ih =>
    rcases Nat.lt_or_ge m.path.length nSize.toNat with hfits' | hlong
    · rw [fetchPath_whole hlen hfits']
      rfl
    · obtain ⟨buf',-,hstep⟩ := fetchPath_truncated (d + 1) hlen hlong
      have htwice : nSize.toNat * 2^(d + 1) = nSize.toNat * 2 * 2^d := by ring
      have hpow : nSize.toNat * 2 ≤ nSize.toNat * 2 * 2^d :=
        Nat.le_mul_of_pos_right _ (by positivity)
      have hdouble : (nSize * 2).toNat = nSize.toNat * 2 := by
        rw [UInt32.toNat_mul]
        exact Nat.mod_eq_of_lt (by change _ * 2 < _; omega)
      rw [hstep]
      refine ih (resize_length _ _) ?_ ?_
      · rw [hdouble,← htwice]
        exact hsize
      · rw [hdouble,← htwice]
        exact hfits

theorem doubled_le (i : ℕ) : 260 * 2^i % 2^32 ≤ 260 * 2^23 := by
  rcases Nat.lt_or_ge i 32 with hi | hi
  · have hall : ∀ i < 32, 260 * 2^i % 2^32 ≤ 260 * 2^23 := by decide
    exact hall i hi
  · have hdvd : 2^32 ∣ 260 * 2^i := (pow_dvd_pow 2 hi).mul_left 260
    rw [Nat.mod_eq_zero_of_dvd hdvd]
    exact Nat.zero_le _

/-- The sizes of the buffer are 260, 520, and so on modulo 2^32, and none is greater than
260 * 2^23. -/
theorem fetchPath_none (fuel i : ℕ) (hlen : buf.length = nSize.toNat)
    (hsize : nSize.toNat = 260 * 2^i % 2^32) (hlong : 260 * 2^23 ≤ m.path.length) :
    fetchPath m.GetModuleFileNameW fuel nSize buf = none := by
  induction fuel generalizing nSize buf i with
  | zero => rfl
  | succ fuel ih =>
    have hle := doubled_le i
    obtain ⟨buf',-,hstep⟩ := fetchPath_truncated (m:=m) fuel hlen (by omega)
    rw [hstep]
    refine ih (i + 1) (resize_length _ _) ?_
    have htwice : 260 * 2^(i + 1) = 260 * 2^i * 2 := by ring
    rw [UInt32.toNat_mul,hsize,htwice]
    exact Nat.mod_mul_mod _ _ _

theorem exists_last_dot (h : 46 ∈ path) : ∃ pre ext, path = pre ++ 46::ext ∧ 46 ∉ ext := by
  obtain ⟨ext,pre,hsplit,hext⟩ := List.eq_append_cons_of_mem (List.mem_reverse.mpr h)
  refine ⟨pre.reverse,ext.reverse,?_,fun hmem => hext (List.mem_reverse.mp hmem)⟩
  have hreverse := congrArg List.reverse hsplit
  simpa using hreverse

theorem cutExtension_length (h : 46 ∈ path) : (cutExtension path).length < path.length := by
  obtain ⟨pre,ext,rfl,hext⟩ := exists_last_dot h
  rw [cutExtension_append hext,List.length_append,List.length_cons]
  omega

theorem imageDir_append_getBaseNameW (path : List WCHAR) :
    imageDir path ++ getBaseNameW path = path := by
  obtain ⟨name,hname⟩ : imageDir path <+: path := List.rdropWhile_prefix _ _
  have hbase : getBaseNameW path = name := by
    have hdrop : (imageDir path ++ name).drop (imageDir path).length = name := List.drop_left
    rwa [hname] at hdrop
  rw [hbase,hname]

theorem besideProgram_of_mem (h : 46 ∈ getBaseNameW path) :
    besideProgram path = cutExtension path ++ wide ".RPT" := by
  obtain ⟨stem,ext,hbase,hext⟩ := exists_last_dot h
  have hstem : ((getBaseNameW path).rdropWhile (· ≠ 46)).dropLast = stem := by
    have hdrop : ∀ c ∈ ext.reverse, (decide (c ≠ 46)) = true := fun c hc =>
      decide_eq_true fun he => hext (he ▸ List.mem_reverse.mp hc)
    rw [hbase,List.rdropWhile,List.reverse_append,List.reverse_cons,List.append_assoc,
      List.dropWhile_append_of_pos hdrop]
    simp
  have hcut : cutExtension path = imageDir path ++ stem := by
    conv_lhs => rw [← imageDir_append_getBaseNameW path,hbase,← List.append_assoc]
    exact cutExtension_append hext
  rw [besideProgram,if_pos h,hstem,hcut]

theorem besideProgram_of_notMem (h : 46 ∉ getBaseNameW path) :
    besideProgram path = path ++ wide ".RPT" := by
  rw [besideProgram,if_neg h,imageDir_append_getBaseNameW]

/-- The string `Setup` stores: without a dot, the extension lies behind the NUL. -/
def storedName (path : List WCHAR) : List WCHAR :=
  if 46 ∈ path then cutExtension path ++ wide ".RPT" else path

theorem cstr_cutExtension (hnul : 0 ∉ path) {n : ℕ} (hn : 0 < n) :
    cstr (cutExtension (path ++ List.replicate n 0) ++ wide ".RPT") = storedName path := by
  have hzeros : (46 : WCHAR) ∉ List.replicate n 0 := fun h =>
    absurd (List.eq_of_mem_replicate h) (by decide)
  by_cases hdot : 46 ∈ path
  · obtain ⟨pre,ext,rfl,hext⟩ := exists_last_dot hdot
    have hbehind : 46 ∉ ext ++ List.replicate n 0 := by
      rw [List.mem_append,not_or]
      exact ⟨hext,hzeros⟩
    rw [List.append_assoc,List.cons_append,cutExtension_append hbehind,storedName,if_pos hdot,
      cutExtension_append hext]
    refine cstr_of_notMem fun hmem => ?_
    rcases List.mem_append.mp hmem with hpre | hrpt
    · exact hnul (List.mem_append_left _ hpre)
    · exact absurd hrpt (by decide)
  · have hnone : 46 ∉ path ++ List.replicate n 0 := by
      rw [List.mem_append,not_or]
      exact ⟨hdot,hzeros⟩
    obtain ⟨k,rfl⟩ : ∃ k, n = k + 1 := ⟨n - 1,by omega⟩
    rw [cutExtension_of_notMem hnone,storedName,if_neg hdot,List.append_assoc,
      cstr_append_of_notMem hnul,List.replicate_succ,List.cons_append,cstr_cons]
    simp

theorem path_length :
    (List.replicate MAX_PATH (0 : WCHAR)).length = (UInt32.ofNat MAX_PATH).toNat :=
  List.length_replicate

/-- What `Setup` stores, for whatever the buffer went through. -/
theorem cstr_Setup {name : List WCHAR} (h : Setup m.GetModuleFileNameW fuel = some name) :
    wide ".RPT" <:+ name ∧ cstr name = storedName m.path := by
  obtain ⟨r,hr,hname⟩ := Option.map_eq_some_iff.mp h
  have hpad : Padded m.path (List.replicate MAX_PATH 0) := fun c hc =>
    List.eq_of_mem_replicate (List.mem_of_mem_drop hc)
  obtain ⟨n,hn,rfl⟩ := fetchPath_some path_length hpad hr
  have hpos := List.length_pos_iff.mpr m.path_ne
  have hret : UInt32.ofNat m.path.length ≠ 0 := by
    intro he
    have hval := congrArg UInt32.toNat he
    rw [UInt32.toNat_ofNat_of_lt' (hn.trans n.toNat_lt)] at hval
    exact absurd hval (by change _ ≠ 0; omega)
  have hlen : (m.path ++ List.replicate (n.toNat - m.path.length) 0).length = n.toNat := by
    rw [List.length_append,List.length_replicate]
    omega
  have hself := resize_self (m.path ++ List.replicate (n.toNat - m.path.length) 0)
  rw [hlen] at hself
  simp only [if_pos hret,hself] at hname
  rw [← hname]
  exact ⟨List.suffix_append _ _,cstr_cutExtension m.noNul (by omega)⟩

theorem Setup_isSome_iff (m : ModuleFileName) :
    (∃ fuel name, Setup m.GetModuleFileNameW fuel = some name) ↔ m.path.length < 260 * 2^23 := by
  constructor
  · rintro ⟨fuel,name,h⟩
    by_contra hlong
    obtain ⟨r,hr,-⟩ := Option.map_eq_some_iff.mp h
    have hnone := fetchPath_none (m:=m) fuel 0 path_length (by decide) (by omega)
    rw [hnone] at hr
    exact absurd hr (by simp)
  · intro hfits
    have hsome := fetchPath_isSome (m:=m) 23 path_length (by decide) hfits
    obtain ⟨r,hr⟩ := Option.isSome_iff_exists.mp hsome
    exact ⟨24,_,congrArg (Option.map _) hr⟩

theorem openReportFile_file {name : List WCHAR} (h : wide ".RPT" <:+ name) (a : Answers) :
    (openReportFile a { g_szLogFileName := name }).2 =
      [.CreateFileW (cstr name) (a.CreateFileW (cstr name))] := by
  have hlen : 4 ≤ name.length := h.length_le
  have hdash : name ≠ wide "-" := by
    rintro rfl
    exact absurd hlen (by decide)
  have hne : name ≠ [] := by
    rintro rfl
    exact absurd hlen (by decide)
  simp [openReportFile,hdash,hne]

/-- The stored name is the one beside the program if the last component has an extension;
it is the module path itself if that extension is `RPT`. -/
theorem storedName_eq_iff (path : List WCHAR) :
    storedName path = besideProgram path ∧ besideProgram path ≠ path ↔
      46 ∈ getBaseNameW path ∧ ¬wide ".RPT" <:+ path := by
  by_cases hbase : 46 ∈ getBaseNameW path
  · have hdot : 46 ∈ path := List.mem_of_mem_drop hbase
    rw [besideProgram_of_mem hbase,storedName,if_pos hdot]
    refine and_congr (iff_of_true rfl hbase) (not_congr ⟨fun h => ⟨_,h⟩,?_⟩)
    rintro ⟨pre,rfl⟩
    exact congrArg (· ++ wide ".RPT") (cutExtension_append (by decide))
  · rw [besideProgram_of_notMem hbase]
    refine iff_of_false (fun h => ?_) (fun h => hbase h.1)
    have hlen := congrArg List.length h.1
    rw [List.length_append,show (wide ".RPT").length = 4 from rfl,storedName] at hlen
    by_cases hdot : 46 ∈ path
    · have hcut := cutExtension_length hdot
      rw [if_pos hdot,List.length_append,show (wide ".RPT").length = 4 from rfl] at hlen
      omega
    · rw [if_neg hdot] at hlen
      omega

theorem reportsBeside_iff (m : ModuleFileName) :
    ReportsBeside m ↔ m.path.length < 260 * 2^23 ∧
      storedName m.path = besideProgram m.path ∧ besideProgram m.path ≠ m.path := by
  rw [← Setup_isSome_iff]
  constructor
  · rintro ⟨fuel,name,hname,hopen,hne⟩
    obtain ⟨hrpt,hstored⟩ := cstr_Setup hname
    refine ⟨⟨fuel,name,hname⟩,?_,hne⟩
    have hopened := hopen ⟨fun _ => 0,0⟩
    rw [openReportFile_file hrpt,hstored] at hopened
    simpa using hopened
  · rintro ⟨⟨fuel,name,hname⟩,heq,hne⟩
    obtain ⟨hrpt,hstored⟩ := cstr_Setup hname
    refine ⟨fuel,name,hname,fun a => ?_,hne⟩
    rw [openReportFile_file hrpt,hstored,heq]

/-- The default report sits beside the program for the module paths whose last component
has an extension other than `RPT`, and for no others. -/
theorem default_report_iff (m : ModuleFileName) : ReportsBeside m ↔ HasExtension m.path := by
  rw [reportsBeside_iff,storedName_eq_iff]
  exact ⟨fun h => ⟨h.1,h.2.1,h.2.2⟩,fun h => ⟨h.fits,h.dot,h.other⟩⟩

/-- Where the path does not fit, its beginning is stored, with a NUL at the end. -/
def moduleFileName (path : List WCHAR) (path_ne : path ≠ []) (noNul : 0 ∉ path) :
    ModuleFileName where
  path := path
  path_ne := path_ne
  noNul := noNul
  GetModuleFileNameW buf nSize :=
    if path.length < nSize.toNat then
      (UInt32.ofNat path.length,path ++ 0::buf.drop (path.length + 1))
    else (nSize,(path.take nSize.toNat).set (nSize.toNat - 1) 0)
  whole _ _ _ hfits := if_pos hfits
  truncated buf nSize hlen hlong := by
    rw [if_neg (Nat.not_lt_of_le hlong)]
    exact ⟨rfl,by rw [List.length_set,List.length_take,hlen]; omega⟩

def extensionless : ModuleFileName :=
  moduleFileName (wide "C:\\tools\\make") (by decide) (by decide)

def dottedDirectory : ModuleFileName :=
  moduleFileName (wide "C:\\gcc-9.2\\make") (by decide) (by decide)

/-- Without a dot in the path, the report is opened at the program itself; with one in a
directory name only, in another directory. -/
theorem extensionless_report_misplaced :
    (¬ReportsBeside extensionless ∧ ∃ name, Setup extensionless.GetModuleFileNameW 1 = some name ∧
      cstr name = extensionless.path) ∧
    ¬ReportsBeside dottedDirectory ∧ ∃ name, Setup dottedDirectory.GetModuleFileNameW 1 = some name ∧
      cstr name = wide "C:\\gcc-9.RPT" := by
  have hmisses : ∀ m : ModuleFileName, 46 ∉ getBaseNameW m.path → ¬ReportsBeside m := fun m hdot h =>
    hdot ((storedName_eq_iff m.path).mp ((reportsBeside_iff m).mp h).2).1
  refine ⟨⟨hmisses _ (by decide +kernel),_,rfl,?_⟩,hmisses _ (by decide +kernel),_,rfl,?_⟩
  · decide +kernel
  · decide +kernel

end ReportDestination
end DrMingw
