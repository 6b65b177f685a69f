import DrMingw.CStrings

/-! `GetFileNameFromHandle`: the path of an open file, from the system or, where that
fails, from the device path of a mapping, whose device is replaced by a drive. -/
namespace DrMingw
namespace DevicePaths

/-- The case folding of the locale that a C program starts with. -/
def towlower (c : WCHAR) : WCHAR := if 65 ≤ c ∧ c ≤ 90 then c + 32 else c

/-- `_wcsnicmp`, on what stands before the NULs. -/
def wcsnicmp : List WCHAR → List WCHAR → ℕ → ℤ
  | _, _, 0 => 0
  | s, t, n+1 =>
    let a := towlower (s.headD 0)
    let b := towlower (t.headD 0)
    if a ≠ b then a.toNat - b.toNat
    else if a = 0 then 0
    else wcsnicmp s.tail t.tail n

/-- `while (*p++);`: what follows the next NUL. There is no result when it reads past the
end. -/
def skipString : List WCHAR → Option (List WCHAR)
  | [] => none
  | c::cs => if c = 0 then some cs else skipString cs

/-- Strings one behind the other, each with its NUL. -/
def packed (strings : List (List WCHAR)) : List WCHAR := strings.flatMap (· ++ [0])

/-- The drives that `GetLogicalDriveStringsW` lists. With the last NUL they fit the 512
characters of `szDriveStrings`. -/
structure DriveStrings where
  drives : List (List WCHAR)
  nonempty : ∀ d ∈ drives, d ≠ []
  noNul : ∀ d ∈ drives, 0 ∉ d
  fits : (packed drives).length < 512

/-- A result of `QueryDosDeviceW` in a buffer of `MAX_PATH` characters: the first name. -/
structure DeviceName extends WideString where
  fits : chars.length < MAX_PATH

/-- A result of `GetMappedFileNameW`. -/
structure MappedFileName (cchFilePath : ℕ) extends WideString where
  fits : chars.length < cchFilePath

/-- What the system answers about one file. -/
structure FileAnswers (cchFilePath : ℕ) where
  /-- None when 0 is returned. -/
  GetFinalPathNameByHandleW : Option WideString
  GetFileSize : DWORD64
  CreateFileMapping : Bool
  MapViewOfFile : Bool
  GetMappedFileNameW : Option (MappedFileName cchFilePath)
  GetLogicalDriveStringsW : DriveStrings
  QueryDosDeviceW : List WCHAR → Option DeviceName

/-- A buffer after a string and its NUL are written to it. -/
def writeString (s buf : List WCHAR) : List WCHAR := s ++ 0::buf.drop (s.length + 1)

/-- The array `szDriveStrings`, zero behind the strings. -/
def DriveStrings.szDriveStrings (d : DriveStrings) : List WCHAR :=
  packed d.drives ++ List.replicate (512 - (packed d.drives).length) 0

/-- The assignment to `bFound`; the character behind the name is read when the name matches. -/
def bFound (szName : List WCHAR) (lpszFilePath : List WCHAR) : Option Bool :=
  if szName.length < MAX_PATH then
    if wcsnicmp (cstr lpszFilePath) szName szName.length = 0 then
      lpszFilePath[szName.length]?.map (decide <| · = 92)
    else some false
  else some false

/-- The device path becomes a DOS path. -/
def replaceDevice (szDrive szName lpszFilePath : List WCHAR) : List WCHAR :=
  let s := wide "\\\\?\\" ++ szDrive ++ cstr (lpszFilePath.drop szName.length)
  (strncpy s lpszFilePath.length).set (lpszFilePath.length - 1) 0

/-- The loop over the drive strings, with `p` as what is left of them. -/
def searchDrives (QueryDosDeviceW : List WCHAR → Option DeviceName) :
    ℕ → List WCHAR → List WCHAR → Option (List WCHAR)
  | 0, _, _ => none
  | fuel+1, p, lpszFilePath => do
    let letter ← p.head?
    let szDrive := cstr [letter,58,0]
    let szName := QueryDosDeviceW szDrive
    let found ← match szName with
      | some szName => bFound szName.chars lpszFilePath
      | none => some false
    let lpszFilePath := match found,szName with
      | true,some szName => replaceDevice szDrive szName.chars lpszFilePath
      | _,_ => lpszFilePath
    let p ← skipString p
    if found then return lpszFilePath
    let next ← p.head?
    if next = 0 then return lpszFilePath
    searchDrives QueryDosDeviceW fuel p lpszFilePath

/-- The result and the buffer of the caller. -/
def GetFileNameFromHandle (lpszFilePath : List WCHAR) (a : FileAnswers lpszFilePath.length)
    (fuel : ℕ) : Option (Bool × List WCHAR) :=
  match a.GetFinalPathNameByHandleW with
  | some path =>
    if path.chars.length < lpszFilePath.length then some (true,writeString path.chars lpszFilePath)
    else some (false,lpszFilePath)
  | none =>
    if a.GetFileSize = 0 then some (false,lpszFilePath)
    else if !a.CreateFileMapping then some (false,lpszFilePath)
    else if !a.MapViewOfFile then some (false,lpszFilePath)
    else match a.GetMappedFileNameW with
      | none => some (false,lpszFilePath)
      | some path => do
        let lpszFilePath := writeString path.chars lpszFilePath
        if (packed a.GetLogicalDriveStringsW.drives).length = 0 then return (true,lpszFilePath)
        let lpszFilePath ← searchDrives a.QueryDosDeviceW fuel
          a.GetLogicalDriveStringsW.szDriveStrings lpszFilePath
        return (true,lpszFilePath)

/-- The letter of a drive string and a colon. -/
def driveName (d : List WCHAR) : List WCHAR := [d.headD 0,58]

/-- The name is a prefix of the path, without regard to case, and a separator follows it. -/
def IsDevice (szName path : List WCHAR) : Prop :=
  path[szName.length]? = some 92 ∧ (path.take szName.length).map towlower = szName.map towlower

instance (szName path : List WCHAR) : Decidable (IsDevice szName path) :=
  inferInstanceAs (Decidable (_ ∧ _))

/-- The device of a drive, if the path is on it. -/
def deviceOf (QueryDosDeviceW : List WCHAR → Option DeviceName) (path d : List WCHAR) :
    Option DeviceName :=
  (QueryDosDeviceW (driveName d)).filter fun szName => IsDevice szName.chars path

/-- The path on the first drive it is on, with the drive for the device. -/
def dosPath (QueryDosDeviceW : List WCHAR → Option DeviceName) (drives : List (List WCHAR))
    (path : List WCHAR) : List WCHAR :=
  (drives.findSome? fun d => (deviceOf QueryDosDeviceW path d).map fun szName =>
    wide "\\\\?\\" ++ driveName d ++ path.drop szName.chars.length).getD path

variable {s t path szName d rest : List WCHAR} {n fuel : ℕ}
  {QueryDosDeviceW : List WCHAR → Option DeviceName}

theorem towlower_eq_zero_iff {c : WCHAR} : towlower c = 0 ↔ c = 0 := by
  rw [towlower]
  split_ifs with h
  · have h1 := UInt16.le_iff_toNat_le.mp h.1
    have h2 := UInt16.le_iff_toNat_le.mp h.2
    change 65 ≤ c.toNat at h1
    change c.toNat ≤ 90 at h2
    refine iff_of_false (fun he => ?_) fun he => ?_
    · have hn := congrArg UInt16.toNat he
      rw [UInt16.toNat_add] at hn
      change (c.toNat + 32) % 65536 = 0 at hn
      omega
    · rw [he] at h1
      exact absurd h1 (by decide)
  · exact Iff.rfl

theorem wcsnicmp_cons {b : WCHAR} (hb : b ≠ 0) : wcsnicmp s (b::t) (n+1) = 0 ↔
    towlower (s.headD 0) = towlower b ∧ wcsnicmp s.tail t n = 0 := by
  have hlower : towlower b ≠ 0 := fun h => hb (towlower_eq_zero_iff.mp h)
  rw [wcsnicmp,List.headD_cons,List.tail_cons]
  by_cases hne : towlower (s.headD 0) = towlower b
  · rw [if_neg (not_not_intro hne),if_neg (hne ▸ hlower)]
    exact (and_iff_right hne).symm
  · rw [if_pos hne]
    refine iff_of_false (fun h => hne (UInt16.toNat_inj.mp ?_)) fun h => hne h.1
    omega

/-- Equal to `_wcsnicmp` are prefixes that differ in case only. -/
theorem wcsnicmp_eq_zero_iff (ht : 0 ∉ t) :
    wcsnicmp s t t.length = 0 ↔ (s.take t.length).map towlower = t.map towlower := by
  induction t generalizing s with
  | nil => simp [wcsnicmp]
  | cons b t ih =>
    have hb : b ≠ 0 := (List.ne_of_not_mem_cons ht).symm
    rw [List.length_cons,wcsnicmp_cons hb,ih (List.not_mem_of_not_mem_cons ht)]
    cases s with
    | nil =>
      have hne : towlower 0 ≠ towlower b := fun h => hb (towlower_eq_zero_iff.mp h.symm)
      simp [hne]
    | cons a s => simp

theorem skipString_append (hd : 0 ∉ d) (rest : List WCHAR) :
    skipString (d ++ 0::rest) = some rest := by
  induction d with
  | nil => rfl
  | cons c d ih =>
    have hc : c ≠ 0 := (List.ne_of_not_mem_cons hd).symm
    rw [List.cons_append,skipString,if_neg hc,ih (List.not_mem_of_not_mem_cons hd)]

theorem separator_at (hn : n ≤ path.length) (rest : List WCHAR) :
    (path ++ 0::rest)[n]?.map (decide <| · = 92) = some (decide (path[n]? = some 92)) := by
  rcases Nat.lt_or_eq_of_le hn with hlt | rfl
  · rw [List.getElem?_append_left hlt]
    simp [List.getElem?_eq_getElem hlt]
  · simp

/-- The test of the loop, on a path in the buffer. -/
theorem bFound_eq (hpath : 0 ∉ path) (szName : DeviceName) (rest : List WCHAR) :
    bFound szName.chars (path ++ 0::rest) = some (decide (IsDevice szName.chars path)) := by
  have hmatch := wcsnicmp_eq_zero_iff (s:=path) szName.noNul
  rw [bFound,if_pos szName.fits,cstr_append_zero hpath]
  by_cases h : (path.take szName.chars.length).map towlower = szName.chars.map towlower
  · rw [if_pos (hmatch.mpr h)]
    have hle : szName.chars.length ≤ path.length := by
      have hlen := congrArg List.length h
      rw [List.length_map,List.length_map,List.length_take] at hlen
      omega
    have hsep : IsDevice szName.chars path ↔ path[szName.chars.length]? = some 92 := and_iff_left h
    rw [separator_at hle,decide_eq_decide.mpr hsep]
  · rw [if_neg fun hc => h (hmatch.mp hc),decide_eq_false fun hd => h hd.2]

theorem IsDevice.lt (h : IsDevice szName path) : szName.length < path.length :=
  (List.getElem?_eq_some_iff.mp h.1).1

theorem replaceDevice_length (szDrive szName lpszFilePath : List WCHAR) :
    (replaceDevice szDrive szName lpszFilePath).length = lpszFilePath.length := by
  rw [replaceDevice,List.length_set,strncpy_length]

/-- The path on the drive, as far as the buffer goes. -/
theorem cstr_replaceDevice {szDrive : List WCHAR} (hpath : 0 ∉ path) (hdrive : 0 ∉ szDrive)
    (hn : szName.length ≤ path.length) (rest : List WCHAR) :
    cstr (replaceDevice szDrive szName (path ++ 0::rest)) =
      (wide "\\\\?\\" ++ szDrive ++ path.drop szName.length).take
        ((path ++ 0::rest).length - 1) := by
  have hverbatim : 0 ∉ wide "\\\\?\\" := by decide
  have hdrop : 0 ∉ path.drop szName.length := fun h => hpath (List.mem_of_mem_drop h)
  have hs : 0 ∉ wide "\\\\?\\" ++ szDrive ++ path.drop szName.length := by
    simp only [List.mem_append,hverbatim,hdrive,hdrop,or_self,not_false_iff]
  rw [replaceDevice,List.drop_append_of_le_length hn,cstr_append_zero hdrop]
  exact cstr_set_last hs (by simp)

theorem driveName_eq (hne : d ≠ []) (hd : 0 ∉ d) : ∃ letter d', d = letter::d' ∧
    cstr [letter,58,0] = driveName d ∧ 0 ∉ driveName d := by
  obtain ⟨letter,d',rfl⟩ := List.exists_cons_of_ne_nil hne
  have hletter : 0 ≠ letter := List.ne_of_not_mem_cons hd
  have hname : 0 ∉ driveName (letter::d') := by
    simpa [driveName] using hletter
  exact ⟨letter,d',rfl,cstr_append_zero hname [],hname⟩

/-- A turn of the loop on a drive that the path is not on. -/
theorem searchDrives_none (hpath : 0 ∉ path) (hne : d ≠ []) (hd : 0 ∉ d)
    (h : deviceOf QueryDosDeviceW path d = none) (c : WCHAR) (p : List WCHAR) :
    searchDrives QueryDosDeviceW (fuel+1) (d ++ 0::c::p) (path ++ 0::rest) =
      if c = 0 then some (path ++ 0::rest)
      else searchDrives QueryDosDeviceW fuel (c::p) (path ++ 0::rest) := by
  obtain ⟨letter,d',rfl,hname,_⟩ := driveName_eq hne hd
  have hskip := skipString_append hd (c::p)
  rw [List.cons_append] at hskip
  rw [searchDrives,List.cons_append,List.head?_cons]
  cases hquery : QueryDosDeviceW (driveName (letter::d')) with
  | none =>
    simp only [Option.bind_eq_bind,Option.bind_some,hname,hquery,hskip,List.head?_cons]
    rfl
  | some szName =>
    have hdevice : ¬IsDevice szName.chars path := fun hd => by
      rw [deviceOf,hquery,Option.filter_some,if_pos (decide_eq_true hd)] at h
      contradiction
    simp only [Option.bind_eq_bind,Option.bind_some,hname,hquery,bFound_eq hpath,
      decide_eq_false hdevice,hskip,List.head?_cons]
    rfl

theorem searchDrives_some (hpath : 0 ∉ path) (hne : d ≠ []) (hd : 0 ∉ d) {szName : DeviceName}
    (h : deviceOf QueryDosDeviceW path d = some szName) (p : List WCHAR) :
    searchDrives QueryDosDeviceW (fuel+1) (d ++ 0::p) (path ++ 0::rest) =
      some (replaceDevice (driveName d) szName.chars (path ++ 0::rest)) := by
  obtain ⟨letter,d',rfl,hname,_⟩ := driveName_eq hne hd
  have hskip := skipString_append hd p
  rw [List.cons_append] at hskip
  obtain ⟨hquery,hdevice⟩ := Option.filter_eq_some_iff.mp h
  rw [searchDrives,List.cons_append,List.head?_cons]
  simp only [Option.bind_eq_bind,Option.bind_some,hname,hquery,bFound_eq hpath,hdevice,hskip]
  rfl

theorem dosPath_cons_some {drives : List (List WCHAR)} {szName : DeviceName}
    (h : deviceOf QueryDosDeviceW path d = some szName) :
    dosPath QueryDosDeviceW (d::drives) path =
      wide "\\\\?\\" ++ driveName d ++ path.drop szName.chars.length := by
  rw [dosPath,List.findSome?_cons,h]
  rfl

theorem dosPath_cons_none {drives : List (List WCHAR)}
    (h : deviceOf QueryDosDeviceW path d = none) :
    dosPath QueryDosDeviceW (d::drives) path = dosPath QueryDosDeviceW drives path := by
  rw [dosPath,List.findSome?_cons,h]
  rfl

theorem packed_cons (d : List WCHAR) (drives : List (List WCHAR)) (p : List WCHAR) :
    packed (d::drives) ++ p = d ++ 0::(packed drives ++ p) := by
  simp [packed]

/-- After a drive that the path is not on the loop goes on with the next one. -/
theorem searchDrives_next (hpath : 0 ∉ path) {d' : List WCHAR} {drives : List (List WCHAR)}
    (hne : ∀ x ∈ d::d'::drives, x ≠ []) (hnul : ∀ x ∈ d::d'::drives, 0 ∉ x)
    (h : deviceOf QueryDosDeviceW path d = none) (p : List WCHAR) :
    searchDrives QueryDosDeviceW (fuel+1) (packed (d::d'::drives) ++ p) (path ++ 0::rest) =
      searchDrives QueryDosDeviceW fuel (packed (d'::drives) ++ p) (path ++ 0::rest) := by
  obtain ⟨c,d'',rfl⟩ := List.exists_cons_of_ne_nil (hne d' (by simp))
  have hc : c ≠ 0 := (List.ne_of_not_mem_cons (hnul (c::d'') (by simp))).symm
  rw [packed_cons,packed_cons,List.cons_append]
  rw [searchDrives_none hpath (hne d (by simp)) (hnul d (by simp)) h,if_neg hc]

/-- The loop stays in the list, ends, and puts the first drive that fits in the path. -/
theorem searchDrives_spec (QueryDosDeviceW : List WCHAR → Option DeviceName)
    {drives : List (List WCHAR)} (hnil : drives ≠ [])
    (hne : ∀ d ∈ drives, d ≠ []) (hnul : ∀ d ∈ drives, 0 ∉ d) (hpath : 0 ∉ path)
    (hfuel : drives.length < fuel) (rest p : List WCHAR) : ∃ buf,
      searchDrives QueryDosDeviceW fuel (packed drives ++ 0::p) (path ++ 0::rest) = some buf ∧
      buf.length = (path ++ 0::rest).length ∧
      cstr buf = (dosPath QueryDosDeviceW drives path).take ((path ++ 0::rest).length - 1) := by
  induction drives generalizing fuel with
  | nil => contradiction
  | cons d drives ih =>
    obtain ⟨m,rfl⟩ := Nat.exists_eq_succ_of_ne_zero (Nat.ne_zero_of_lt hfuel)
    have hd := hne d List.mem_cons_self
    have hd0 := hnul d List.mem_cons_self
    cases hdevice : deviceOf QueryDosDeviceW path d with
    | some szName =>
      have hlt := IsDevice.lt (of_decide_eq_true (Option.filter_eq_some_iff.mp hdevice).2)
      obtain ⟨_,_,_,_,hname⟩ := driveName_eq hd hd0
      rw [packed_cons,dosPath_cons_some hdevice]
      exact ⟨_,searchDrives_some hpath hd hd0 hdevice _,replaceDevice_length _ _ _,
        cstr_replaceDevice hpath hname hlt.le rest⟩
    | none =>
      rw [dosPath_cons_none hdevice]
      cases drives with
      | nil =>
        rw [packed_cons]
        refine ⟨_,searchDrives_none hpath hd hd0 hdevice 0 p,rfl,?_⟩
        rw [cstr_append_zero hpath]
        exact (List.take_of_length_le (by simp)).symm
      | cons d' drives =>
        rw [searchDrives_next hpath hne hnul hdevice]
        exact ih (List.cons_ne_nil _ _) (fun x hx => hne x (List.mem_cons_of_mem _ hx))
          (fun x hx => hnul x (List.mem_cons_of_mem _ hx)) (Nat.lt_of_succ_lt_succ hfuel)

theorem szDriveStrings_eq (strings : DriveStrings) : ∃ p,
    strings.szDriveStrings = packed strings.drives ++ 0::p := by
  have hfits := strings.fits
  obtain ⟨k,hk⟩ : ∃ k, 512 - (packed strings.drives).length = k + 1 :=
    ⟨512 - (packed strings.drives).length - 1,by omega⟩
  refine ⟨List.replicate k 0,?_⟩
  rw [DriveStrings.szDriveStrings,hk,List.replicate_succ]

theorem packed_length_pos {drives : List (List WCHAR)} (h : drives ≠ []) :
    (packed drives).length ≠ 0 := by
  cases drives with
  | nil => contradiction
  | cons d drives => simp [packed]

/-- Where the system tells only the device path, the caller gets the path on the first of
the listed drives whose device it is on, or else the device path. -/
theorem device_path_translated (lpszFilePath : List WCHAR) (a : FileAnswers lpszFilePath.length)
    (path : MappedFileName lpszFilePath.length) (fuel : ℕ)
    (hfinal : a.GetFinalPathNameByHandleW = none) (hsize : a.GetFileSize ≠ 0)
    (hmap : a.CreateFileMapping = true) (hview : a.MapViewOfFile = true)
    (hpath : a.GetMappedFileNameW = some path)
    (hfuel : a.GetLogicalDriveStringsW.drives.length < fuel) :
    ∃ buf, GetFileNameFromHandle lpszFilePath a fuel = some (true,buf) ∧
      buf.length = lpszFilePath.length ∧
      cstr buf = (dosPath a.QueryDosDeviceW a.GetLogicalDriveStringsW.drives path.chars).take
        (lpszFilePath.length - 1) := by
  have hfits := path.fits
  have hwrite : (writeString path.chars lpszFilePath).length = lpszFilePath.length := by
    rw [writeString,List.length_append,List.length_cons,List.length_drop]
    omega
  rw [GetFileNameFromHandle,hfinal]
  simp only [if_neg hsize,hmap,hview,hpath]
  by_cases hnil : a.GetLogicalDriveStringsW.drives = []
  · have hnone : (packed a.GetLogicalDriveStringsW.drives).length = 0 := by
      rw [hnil]
      rfl
    refine ⟨_,if_pos hnone,hwrite,?_⟩
    rw [writeString,cstr_append_zero path.noNul,hnil]
    exact (List.take_of_length_le (Nat.le_pred_of_lt hfits)).symm
  · obtain ⟨p,hp⟩ := szDriveStrings_eq a.GetLogicalDriveStringsW
    obtain ⟨buf,hbuf,hlen,hcstr⟩ := searchDrives_spec a.QueryDosDeviceW hnil
      a.GetLogicalDriveStringsW.nonempty a.GetLogicalDriveStringsW.noNul path.noNul hfuel
      (lpszFilePath.drop (path.chars.length + 1)) p
    rw [← writeString] at hbuf hlen hcstr
    rw [hwrite] at hlen hcstr
    refine ⟨buf,?_,hlen,hcstr⟩
    rw [if_neg (packed_length_pos hnil),hp,hbuf]
    rfl

def volume1 : DeviceName := ⟨⟨wide "\\Device\\HarddiskVolume1",by decide⟩,by decide⟩

def volume10 : DeviceName := ⟨⟨wide "\\Device\\HarddiskVolume10",by decide⟩,by decide⟩

/-- A file on the last of three drives, the first of which cannot be looked up. -/
def onVolume10 : FileAnswers (List.replicate 64 (0 : WCHAR)).length where
  GetFinalPathNameByHandleW := none
  GetFileSize := 4096
  CreateFileMapping := true
  MapViewOfFile := true
  GetMappedFileNameW := some ⟨⟨wide "\\device\\harddiskvolume10\\a.exe",by decide⟩,by decide⟩
  GetLogicalDriveStringsW := ⟨[wide "A:\\",wide "C:\\",wide "D:\\"],by decide,by decide,by decide⟩
  QueryDosDeviceW szDrive := if szDrive = wide "C:" then some volume1
    else if szDrive = wide "D:" then some volume10 else none

theorem device_path_on_volume10 :
    (GetFileNameFromHandle (List.replicate 64 0) onVolume10 4).map (fun r => (r.1,cstr r.2)) =
      some (true,wide "\\\\?\\D:\\a.exe") := by
  obtain ⟨buf,hbuf,_,hcstr⟩ := device_path_translated (List.replicate 64 0) onVolume10 _ 4 rfl
    (by decide) rfl rfl rfl (by decide)
  rw [hbuf,Option.map_some,hcstr]
  exact congrArg (fun s => some (true,s)) (by decide)

end DevicePaths
end DrMingw
