import DrMingw.RegistryInvariant

/-! Which image file the symbols of an address come from, over runs of loads,
unloads and lookups in an initialised process, against the module mapped there. -/
namespace DrMingw
open PeImage

/-- Loads, unloads and lookups: the calls made on an initialised process. -/
def Call.isModuleCall : Call → Bool
  | .SymInitialize _ | .SymInitializeW _ | .SymCleanup _ => false
  | _ => true

/-- What has been loaded at one base: the file of the most recent load that has not
been unloaded since, and the files unloaded before. -/
structure Loads where
  mapped : Option FileId := none
  unloaded : List FileId := []

variable (e : Environment)

def loadsAfter (h : HANDLE) (base : DWORD64) (l : Loads) (q : Request) : Loads :=
  let load (hProcess hFile : HANDLE) (name : Option (List WCHAR)) (BaseOfDll : DWORD64) : Loads :=
    if hProcess = h ∧ BaseOfDll = base then
      { l with mapped := imageFile e.toSetting q.world hProcess hFile name BaseOfDll }
    else l
  match q.call with
  | .SymLoadModuleEx r => load r.hProcess r.hFile (r.ImageName.map (imageNameBuf e)) r.BaseOfDll
  | .SymLoadModuleExW r => load r.hProcess r.hFile r.ImageName r.BaseOfDll
  | .SymUnloadModule64 hProcess BaseOfDll =>
    if hProcess = h ∧ BaseOfDll = base then ⟨none,l.mapped.toList ++ l.unloaded⟩ else l
  | _ => l

/-- The loads at a base over a run. -/
def loads (h : HANDLE) (base : DWORD64) (qs : List Request) : Loads :=
  qs.foldl (loadsAfter e h base) {}

/-- The file the listed module at a base has been brought in from. -/
def listedFile (r : Registry) (h : HANDLE) (base : DWORD64) : Option FileId :=
  (mgwhelp_process_lookup r.processes h).bind fun p =>
    (p.modules.find? fun m => m.Base = base).map (·.file)

/-- A search for the module at a base brings one in, from the file. -/
def Brings (w : World) (r : Registry) (h : HANDLE) (base : DWORD64) (x : ModuleSearch)
    (f : FileId) : Prop :=
  x.hProcess = h ∧ x.Base = base ∧ (Effect.search x).maps e w r = true ∧
    imageFile e.toSetting w x.hProcess x.hFile x.ImageName x.Base = some f

/-- Some call of a run from `s₀` has brought in the module at a base, from the file. -/
def BroughtIn (s₀ : MgwHelp) (h : HANDLE) (base : DWORD64) (qs : List Request) (f : FileId) :
    Prop :=
  ∃ pre q post s x, qs = pre ++ q::post ∧ (mgwhelp e).after (some s₀) pre = some s ∧
    q.effect e = .search x ∧ Brings e q.world s.registry h base x f

variable {e} {w : World} {h : HANDLE} {base : DWORD64} {r r' : Registry} {s s' s₀ : MgwHelp}
  {q : Request} {qs : List Request} {f : FileId} {ps : List Process} {m : Module}

/-- A module once listed stays; a search adds one only where it brings one in. -/
theorem listedFile_search {x : ModuleSearch}
    (ha : (Effect.search x).apply e w r = some r') :
    listedFile r' h base = some f ↔ listedFile r h base = some f ∨ Brings e w r h base x f := by
  obtain ⟨⟨o,r₁⟩,hl,rfl⟩ := Option.map_eq_some_iff.mp ha
  rcases module_lookup_cases hl with ⟨hp,-,rfl⟩ | ⟨p,hp,⟨m,hm,-,rfl⟩ | ⟨k,hm,hc,rfl⟩⟩
  · simp [Brings,Effect.maps,hp]
  · simp [Brings,Effect.maps,hp,hm]
  · have hmaps : (Effect.search x).maps e w r = o.isSome := by
      rw [module_create_isSome hc]
      simp [Effect.maps,hp,hm]
    cases o with
    | none =>
      have hsame : listedFile ⟨r.processes,k⟩ h base = listedFile r h base := rfl
      simp [Brings,hmaps,hsame]
    | some m =>
      obtain ⟨hb,hf⟩ := module_create_some hc
      simp only [Brings,hmaps,hf,Option.isSome_some,true_and,Option.some_inj]
      dsimp only [listedFile,Option.elim_some]
      rw [process_lookup_link]
      by_cases hh : h = x.hProcess
      · subst hh
        by_cases hbase : x.Base = base
        · subst hbase
          simp [hp,hb,hm]
        · have hne : m.Base ≠ base := hb ▸ hbase
          simp [hp,hne,hbase]
      · have hne : x.hProcess ≠ h := fun he => hh he.symm
        simp [hh,hne]

theorem moduleCall_effect (hq : q.call.isModuleCall = true) :
    q.effect e = .nothing ∨ ∃ x, q.effect e = .search x := by
  have hs (x : ModuleSearch) : searchAt x = .nothing ∨ ∃ y, searchAt x = .search y := by
    simp only [searchAt]
    split
    · exact .inl rfl
    · exact .inr ⟨x,rfl⟩
  simp only [Request.effect]
  cases hc : q.call with
  | SymInitialize | SymInitializeW | SymCleanup => simp [Call.isModuleCall,hc] at hq
  | SymUnloadModule64 => exact .inl rfl
  | SymLoadModuleEx | SymLoadModuleExW | SymFromAddr | SymFromAddrW | SymGetLineFromAddr64
  | SymGetLineFromAddrW64 => exact hs _

theorem broughtIn_concat (hs : (mgwhelp e).after (some s₀) qs = some s) :
    BroughtIn e s₀ h base (qs ++ [q]) f ↔ BroughtIn e s₀ h base qs f ∨
      ∃ x, q.effect e = .search x ∧ Brings e q.world s.registry h base x f := by
  constructor
  · rintro ⟨pre,q',post,s₁,x,heq,hpre,hx,hb⟩
    rcases List.eq_nil_or_concat post with rfl | ⟨post,q₂,rfl⟩
    · obtain ⟨rfl,hq⟩ := List.append_inj' heq rfl
      obtain rfl : q = q' := by simpa using hq
      obtain rfl := Option.some.inj (hs.symm.trans hpre)
      exact .inr ⟨x,hx,hb⟩
    · have heq' : qs ++ [q] = (pre ++ q'::post) ++ [q₂] := by simpa using heq
      obtain ⟨hqs,-⟩ := List.append_inj' heq' rfl
      exact .inl ⟨pre,q',post,s₁,x,hqs,hpre,hx,hb⟩
  · rintro (⟨pre,q',post,s₁,x,rfl,hpre,hx,hb⟩ | ⟨x,hx,hb⟩)
    · exact ⟨pre,q',post ++ [q],s₁,x,by simp,hpre,hx,hb⟩
    · exact ⟨qs,q,[],s,x,rfl,hs,hx,hb⟩

/-- After loads, unloads and lookups, the module listed at a base is the one first
brought in there. -/
def ListsFirst (e : Environment) (s₀ : MgwHelp) (h : HANDLE) (base : DWORD64) (f : FileId)
    (qs : List Request) (s : MgwHelp) : Prop :=
  (∀ q ∈ qs, q.call.isModuleCall = true) →
    (listedFile s.registry h base = some f ↔ BroughtIn e s₀ h base qs f)

theorem listedFile_step (hs : (mgwhelp e).after (some s₀) qs = some s)
    (hl : ListsFirst e s₀ h base f qs s) (hstep : s.step e q = some s') :
    ListsFirst e s₀ h base f (qs ++ [q]) s' := by
  intro hqs
  have hprev := hl fun q' hq' => hqs q' (List.mem_append_left [q] hq')
  have heff := step_effect hstep
  rw [broughtIn_concat hs,← hprev]
  rcases moduleCall_effect (e:=e) (hqs q (by simp)) with hn | ⟨x,hx⟩
  · rw [hn] at heff
    have hr : s.registry = s'.registry := by simpa [Effect.apply] using heff
    simp [hn,hr]
  · rw [hx] at heff
    rw [listedFile_search heff]
    simp [hx]

theorem listedFile_run {p : Process}
    (hp : mgwhelp_process_lookup s₀.registry.processes h = some p) (hfresh : p.modules = [])
    (hs : (mgwhelp e).after (some s₀) qs = some s) : ListsFirst e s₀ h base f qs s :=
  Machine.ofPartial_run (fun _ => by simp [listedFile,hp,hfresh,BroughtIn])
    (fun _ _ _ _ hs hl hstep => listedFile_step hs hl hstep) hs

/-- What a search returns is what is listed afterwards. -/
theorem module_lookup_listed {hFile : HANDLE} {name : Option (List WCHAR)} {o : Option Module}
    (hl : mgwhelp_module_lookup e.toSetting w h hFile name base r = some (o,r')) :
    listedFile r' h base = o.map (·.file) := by
  rcases module_lookup_cases hl with ⟨hp,rfl,rfl⟩ | ⟨p,hp,⟨m,hm,rfl,rfl⟩ | ⟨k,hm,hc,rfl⟩⟩
  · simp [listedFile,hp]
  · simp [listedFile,hp,hm]
  · cases o with
    | none => simp [listedFile,hp,hm]
    | some m => simp [listedFile,process_lookup_link,hp,(module_create_some hc).1]

theorem find_module_file {a : DWORD64} {found : Option (Module × DWORD64)}
    (hb : GetModuleBase e.toSetting w h a ≠ 0)
    (hf : mgwhelp_find_module e.toSetting w h a r = some (found,r')) :
    found.map (·.1.file) = some f ↔ listedFile r h (GetModuleBase e.toSetting w h a) = some f ∨
      Brings e w r h (GetModuleBase e.toSetting w h a)
        ⟨h,NULL,none,GetModuleBase e.toSetting w h a⟩ f := by
  have heff := (congrArg (Option.map (·.2)) hf).symm.trans find_module_effect
  simp only [searchAt,if_neg hb,Option.map_some] at heff
  rw [← listedFile_search heff.symm]
  simp only [mgwhelp_find_module,if_neg hb] at hf
  obtain ⟨⟨o,r₁⟩,hl,hx⟩ := Option.map_eq_some_iff.mp hf
  obtain ⟨rfl,rfl⟩ := Prod.mk.inj hx
  rw [module_lookup_listed hl]
  simp [Option.map_map,Function.comp_def]

/-- The file of the module mapped at a base is used, and no file unloaded from there. -/
def UsesMapped (l : Loads) (used : FileId → Prop) : Prop :=
  (∀ f, l.mapped = some f → used f) ∧ (l.mapped = none → ∀ f ∈ l.unloaded, ¬used f)

/-- A lookup uses the file of the module mapped at its base, and no unloaded one, if
and only if the module first brought in at that base is from such a file. -/
theorem symbols_from_mapped_iff (e : Environment) (s₀ s : MgwHelp) (h : HANDLE) (p : Process)
    (qs : List Request) (w : World) (a : DWORD64) (found : Option (Module × DWORD64))
    (r' : Registry) (hp : mgwhelp_process_lookup s₀.registry.processes h = some p)
    (hfresh : p.modules = []) (hqs : ∀ q ∈ qs, q.call.isModuleCall = true)
    (hs : (mgwhelp e).after (some s₀) qs = some s) (hb : GetModuleBase e.toSetting w h a ≠ 0)
    (hf : mgwhelp_find_module e.toSetting w h a s.registry = some (found,r')) :
    UsesMapped (loads e h (GetModuleBase e.toSetting w h a) qs)
        (fun f => found.map (·.1.file) = some f) ↔
      UsesMapped (loads e h (GetModuleBase e.toSetting w h a) qs) fun f =>
        BroughtIn e s₀ h (GetModuleBase e.toSetting w h a) qs f ∨
          Brings e w s.registry h (GetModuleBase e.toSetting w h a)
            ⟨h,NULL,none,GetModuleBase e.toSetting w h a⟩ f := by
  have hiff (f : FileId) : found.map (·.1.file) = some f ↔
      BroughtIn e s₀ h (GetModuleBase e.toSetting w h a) qs f ∨
        Brings e w s.registry h (GetModuleBase e.toSetting w h a)
          ⟨h,NULL,none,GetModuleBase e.toSetting w h a⟩ f := by
    rw [find_module_file hb hf,listedFile_run hp hfresh hs hqs]
  simp only [UsesMapped,hiff]

/-- Process 1, just initialised. -/
def initialisedProcess : MgwHelp := { registry := ⟨[⟨⟨.memory,0⟩,1,[]⟩],⟨1,[]⟩⟩ }

def bareUnload (hProcess : HANDLE) (BaseOfDll : DWORD64) : Request :=
  bareRequest (.SymUnloadModule64 hProcess BaseOfDll)

/-- The search of a lookup at the end of a run, for an address right behind 0x400000. -/
def foundAfter (qs : List Request) : Option (Option (Module × DWORD64) × Registry) :=
  ((mgwhelp bareEnvironment).after (some initialisedProcess) qs).bind fun s =>
    mgwhelp_find_module bareEnvironment.toSetting bareWorld 1 0x400010 s.registry

/-- A library is loaded, unloaded, and another one loaded in its place. -/
def reloaded : List Request := [bareLoad 1 5 0x400000,bareUnload 1 0x400000,bareLoad 1 6 0x400000]

/-- A library is loaded, unloaded, and loaded again. -/
def loadedAgain : List Request :=
  [bareLoad 1 5 0x400000,bareUnload 1 0x400000,bareLoad 1 5 0x400000]

theorem symbols_from_mapped_loadedAgain :
    BroughtIn bareEnvironment initialisedProcess 1 0x400000 loadedAgain 5 ∨
      Brings bareEnvironment bareWorld (((mgwhelp bareEnvironment).after (some initialisedProcess)
        loadedAgain).getD {}).registry 1 0x400000 ⟨1,NULL,none,0x400000⟩ 5 := by
  have hiff := symbols_from_mapped_iff bareEnvironment initialisedProcess
    (((mgwhelp bareEnvironment).after (some initialisedProcess) loadedAgain).getD {}) 1
    ⟨⟨.memory,0⟩,1,[]⟩ loadedAgain bareWorld 0x400010 ((foundAfter loadedAgain).getD (none,{})).1
    ((foundAfter loadedAgain).getD (none,{})).2 rfl rfl (by decide) rfl (by decide) rfl
  refine (hiff.mp ⟨fun f hf => ?_,fun hn => ?_⟩).1 5 rfl
  · obtain rfl : 5 = f := Option.some.inj hf
    rfl
  · exact absurd hn (by decide)

theorem reloaded_uses_unloaded :
    ¬ ∀ (e : Environment) (s₀ s : MgwHelp) (h : HANDLE) (p : Process) (qs : List Request)
      (w : World) (a : DWORD64) (found : Option (Module × DWORD64)) (r' : Registry),
      mgwhelp_process_lookup s₀.registry.processes h = some p → p.modules = [] →
      (∀ q ∈ qs, q.call.isModuleCall = true) → (mgwhelp e).after (some s₀) qs = some s →
      GetModuleBase e.toSetting w h a ≠ 0 →
      mgwhelp_find_module e.toSetting w h a s.registry = some (found,r') →
      UsesMapped (loads e h (GetModuleBase e.toSetting w h a) qs)
        fun f => found.map (·.1.file) = some f := by
  intro hall
  have huses := hall bareEnvironment initialisedProcess
    (((mgwhelp bareEnvironment).after (some initialisedProcess) reloaded).getD {}) 1
    ⟨⟨.memory,0⟩,1,[]⟩ reloaded bareWorld 0x400010 ((foundAfter reloaded).getD (none,{})).1
    ((foundAfter reloaded).getD (none,{})).2 rfl rfl (by decide) rfl (by decide) rfl
  exact absurd (huses.1 6 rfl) (by decide)

end DrMingw
