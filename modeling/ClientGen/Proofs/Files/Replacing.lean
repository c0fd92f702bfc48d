import ClientGen.Files.Run
import ClientGen.Proofs.Files.Places
import ClientGen.Json.Decoder
/-! Replacing a file as a whole. Whatever step fails, a run that fails leaves every file as it
was and no temporary one behind; a run that succeeds has replaced one file and no other. -/
namespace ClientGen

namespace Store

variable {s t u : Store}

def AddsDirectories (s t : Store) : Prop :=
  ∀ place, t.get? place = s.get? place ∨
    (s.get? place = none ∧ t.get? place = some .directory)

theorem AddsDirectories.of_get?_eq (h : ∀ place, t.get? place = s.get? place) :
    s.AddsDirectories t :=
  fun place => .inl (h place)

theorem AddsDirectories.trans (h : s.AddsDirectories t) (h' : t.AddsDirectories u) :
    s.AddsDirectories u := by
  intro place
  rcases h place with hst | ⟨hs, ht⟩
  · rcases h' place with htu | ⟨ht, hu⟩
    · exact .inl (htu.trans hst)
    · exact .inr ⟨hst.symm.trans ht, hu⟩
  · rcases h' place with htu | ⟨hnone, _⟩
    · exact .inr ⟨hs, htu.trans ht⟩
    · rw [ht] at hnone
      cases hnone

theorem AddsDirectories.file_iff (h : s.AddsDirectories t) (place : List String)
    (content : ByteArray) :
    t.get? place = some (.file content) ↔ s.get? place = some (.file content) := by
  rcases h place with heq | ⟨hs, ht⟩
  · rw [heq]
  · simp [hs, ht]

theorem AddsDirectories.fileAt?_eq (h : s.AddsDirectories t) (path : String) :
    t.fileAt? path = s.fileAt? path := by
  unfold fileAt?
  rcases h (placeOf path) with heq | ⟨hs, ht⟩
  · rw [heq]
  · rw [hs, ht]

theorem addsDirectories_set {place : List String} (h : s.get? place = none) :
    s.AddsDirectories (s.set place .directory) := by
  intro other
  by_cases heq : other = place
  · subst heq
    right
    refine ⟨h, get?_set_self (not_isAbove_of_get? (s := s) ?_) _⟩
    rw [h]
    exact Option.some_ne_none _ |>.symm
  · exact .inl (get?_set_of_ne heq _)

theorem addsDirectories_createAlong (s : Store) (made segments : List String) :
    s.AddsDirectories (s.createAlong made segments).2 := by
  fun_induction createAlong s made segments with
  | case1 => exact .of_get?_eq fun _ => rfl
  | case2 => exact .of_get?_eq fun _ => rfl
  | case3 s made segment rest place _ hnone ih => exact (addsDirectories_set hnone).trans ih
  | case4 s made segment rest place _ _ ih => exact ih
  | case5 => exact .of_get?_eq fun _ => rfl

theorem addsDirectories_createDirectories (s : Store) (path : String) :
    s.AddsDirectories (s.createDirectories path).2 := by
  unfold createDirectories
  split
  · exact .of_get?_eq fun _ => rfl
  · exact addsDirectories_createAlong _ _ _

/-- The second store is the first with one more file, at a path that leads to it. -/
structure HoldsTemporary (s t : Store) (path : String) (content : ByteArray) : Prop where
  vacant : s.get? (placeOf path) = none
  located : t.locate path = .ok (placeOf path)
  file : t.get? (placeOf path) = some (.file content)
  others : ∀ place, place ≠ placeOf path → t.get? place = s.get? place

/-- Files are put where nothing or another file is, so all paths still lead where they led. -/
theorem keepsDirectories_set {place : List String} (h : s.get? place ≠ some .directory)
    (node : FileNode) : s.KeepsDirectories (s.set place node) := by
  intro other hother
  have hne : other ≠ place := by
    rintro rfl
    exact h hother
  rw [get?_set_of_ne hne, hother]

theorem HoldsTemporary.of_createTemporary {directory path : String}
    (h : s.createTemporary directory = .ok (path, t)) : s.HoldsTemporary t path .empty := by
  unfold createTemporary at h
  obtain ⟨place, hplace, h⟩ := bind_eq_ok_iff.1 h
  cases h
  have heq := locate_eq hplace
  subst heq
  have hvacant := s.get?_placeOf_freshName directory
  have hdirectory : s.get? (placeOf (directory ++ "/" ++ s.freshName)) ≠ some .directory := by
    rw [hvacant]
    exact (Option.some_ne_none _).symm
  exact {
    vacant := hvacant
    located := locate_mono (keepsDirectories_set hdirectory _) hplace
    file := get?_set_self (not_isAbove_of_get? hdirectory) _
    others := fun place hne => get?_set_of_ne hne _ }

theorem write_eq_ok {path content : String} (h : s.write path content = .ok t) :
    s.locate path = .ok (placeOf path) ∧ s.get? (placeOf path) ≠ some .directory ∧
      t = s.set (placeOf path) (.file content.toUTF8) := by
  unfold write at h
  obtain ⟨place, hplace, h⟩ := bind_eq_ok_iff.1 h
  have heq := locate_eq hplace
  subst heq
  split at h
  · cases h
  · next hdirectory =>
    cases h
    exact ⟨hplace, hdirectory, rfl⟩

theorem HoldsTemporary.write {path content : String} {old : ByteArray}
    (h : s.HoldsTemporary t path old) (hwrite : t.write path content = .ok u) :
    s.HoldsTemporary u path content.toUTF8 := by
  obtain ⟨hplace, hdirectory, rfl⟩ := write_eq_ok hwrite
  exact {
    vacant := h.vacant
    located := locate_mono (keepsDirectories_set hdirectory _) hplace
    file := get?_set_self (not_isAbove_of_get? hdirectory) _
    others := fun place hne => (get?_set_of_ne hne _).trans (h.others place hne) }

theorem HoldsTemporary.get?_remove {path : String} {content : ByteArray}
    (h : s.HoldsTemporary t path content) (place : List String) :
    (t.remove path).get? place = s.get? place := by
  unfold remove
  rw [h.located]
  by_cases hne : place = placeOf path
  · subst hne
    rw [h.vacant]
    apply get?_erase_self
    exact not_isAbove_of_get? (s := t) (by simp [h.file])
  · exact (get?_erase_of_ne hne).trans (h.others place hne)

structure Renames (s t : Store) (source target : String) (node : FileNode) : Prop where
  origin : s.locate source = .ok (placeOf source)
  place : s.locate target = .ok (placeOf target)
  moved : s.get? (placeOf source) = some node
  replaced : s.get? (placeOf target) ≠ some .directory
  named : pathEnd target = .name
  result : t = (s.erase (placeOf source)).set (placeOf target) node

theorem rename_eq_ok {source target : String} (h : s.rename source target = .ok t) :
    ∃ node, s.Renames t source target node := by
  unfold rename at h
  obtain ⟨origin, horigin, h⟩ := bind_eq_ok_iff.1 h
  obtain ⟨place, hplace, h⟩ := bind_eq_ok_iff.1 h
  rw [mapError_eq_ok_iff] at hplace
  have heq := locate_eq horigin
  subst heq
  have heq := locate_eq hplace
  subst heq
  split at h
  case h_7 node hnode hname hdirectory =>
    cases h
    exact ⟨node, horigin, hplace, hnode, hdirectory, hname, rfl⟩
  all_goals cases h

/-- The file of a path has the content, and no other file has changed. -/
structure Replaces (s t : Store) (path content : String) : Prop where
  read : t.read path = .ok content
  file : t.fileAt? path = some content.toUTF8
  others : ∀ place, place ≠ placeOf path → t.get? place = s.get? place ∨
    (s.get? place = none ∧ t.get? place = some .directory)

theorem fromUTF8?_toUTF8 (text : String) : String.fromUTF8? text.toUTF8 = some text :=
  dif_pos text.isValidUTF8

theorem read_eq_ok {path content : String} (hplace : s.locate path = .ok (placeOf path))
    (hname : pathEnd path = .name)
    (hfile : s.get? (placeOf path) = some (.file content.toUTF8)) : s.read path = .ok content := by
  rw [read, hplace, ok_bind, hfile]
  simp only [hname, bne_self_eq_false, Bool.false_eq_true, if_false, fromUTF8?_toUTF8]

theorem HoldsTemporary.rename {path target content : String}
    (h : s.HoldsTemporary t path content.toUTF8) (hrename : t.rename path target = .ok u) :
    s.Replaces u target content := by
  obtain ⟨node, hr⟩ := rename_eq_ok hrename
  have hnode := hr.moved.symm.trans h.file
  cases hnode
  have hfile : u.get? (placeOf target) = some (.file content.toUTF8) := by
    rw [hr.result]
    exact get?_set_self (not_isAbove_of_get? hr.replaced) _
  have hother : ∀ place, place ≠ placeOf target → place ≠ placeOf path →
      u.get? place = t.get? place := by
    intro place htarget hpath
    rw [hr.result, get?_set_of_ne htarget, get?_erase_of_ne hpath]
  have hkeep : t.KeepsDirectories u := by
    intro place hdirectory
    have htarget : place ≠ placeOf target := by
      rintro rfl
      exact hr.replaced hdirectory
    have hpath : place ≠ placeOf path := by
      rintro rfl
      rw [h.file] at hdirectory
      cases hdirectory
    rw [hother place htarget hpath, hdirectory]
  refine ⟨read_eq_ok (locate_mono hkeep hr.place) hr.named hfile, ?_, fun place htarget => .inl ?_⟩
  · rw [fileAt?, hfile]
  · by_cases hpath : place = placeOf path
    · subst hpath
      rw [h.vacant, hr.result, get?_set_of_ne htarget]
      exact get?_erase_self (not_isAbove_of_get? (s := t) (by simp [h.file]))
    · rw [hother place htarget hpath, h.others place hpath]

theorem Replaces.after {path content : String} (hadds : s.AddsDirectories t)
    (h : t.Replaces u path content) : s.Replaces u path content := by
  refine ⟨h.read, h.file, fun place hne => ?_⟩
  rcases hadds place with hst | ⟨hs, ht⟩
  · rw [← hst]
    exact h.others place hne
  · rcases h.others place hne with htu | ⟨hnone, _⟩
    · exact .inr ⟨hs, htu.trans ht⟩
    · rw [ht] at hnone
      cases hnone

end Store

namespace Simulation

variable {α β : Type} {w w' : World}

theorem bind_apply (x : Simulation α) (f : α → Simulation β) (w : World) :
    (x >>= f) w = f (x w).1 (x w).2 := rfl

theorem attemptWhole_cases (w : World) (step : HostStep)
    (f : Store → Except OsError (α × Store)) :
    (∃ e, w.attemptWhole step f = (.error e, w)) ∨
      ∃ a w', w.attemptWhole step f = (.ok a, w') ∧ f w.store = .ok (a, w'.store) := by
  unfold World.attemptWhole World.attempt
  split
  · exact .inl ⟨_, rfl⟩
  · cases hf : f w.store with
    | error e => exact .inl ⟨e, by simp [hf]⟩
    | ok p => exact .inr ⟨p.1, { w with store := p.2 }, by simp [hf], rfl⟩

theorem store_read (path : String) (w : World) :
    ((Host.read path : Simulation (Except OsError String)) w).2.store = w.store := by
  change (w.attempt .read fun s => (s.read path, s)).2.store = w.store
  unfold World.attempt
  split <;> rfl

theorem addsDirectories_createDirectories (path : String) (w : World) :
    w.store.AddsDirectories
      ((Host.createDirectories path : Simulation (Except OsError Unit)) w).2.store := by
  change w.store.AddsDirectories
    (w.attempt .createDirectories (·.createDirectories path)).2.store
  unfold World.attempt
  split
  · exact .of_get?_eq fun _ => rfl
  · exact w.store.addsDirectories_createDirectories path

theorem createTemporary_cases (directory : String) (w : World) :
    (∃ e, (Host.createTemporary directory : Simulation _) w = (.error e, w)) ∨
      ∃ path w', (Host.createTemporary directory : Simulation _) w = (.ok path, w') ∧
        w.store.HoldsTemporary w'.store path .empty := by
  rcases attemptWhole_cases w .createTemporary (·.createTemporary directory) with
    ⟨e, h⟩ | ⟨path, w', h, hf⟩
  · exact .inl ⟨e, h⟩
  · exact .inr ⟨path, w', h, .of_createTemporary hf⟩

theorem write_cases (path content : String) (w : World) :
    (∃ e, (Host.write path content : Simulation _) w = (.error e, w)) ∨
      ∃ w', (Host.write path content : Simulation _) w = (.ok (), w') ∧
        w.store.write path content = .ok w'.store := by
  rcases attemptWhole_cases w .write fun s => (s.write path content).map ((), ·) with
    ⟨e, h⟩ | ⟨_, w', h, hf⟩
  · exact .inl ⟨e, h⟩
  · obtain ⟨t, ht, heq⟩ := map_eq_ok_iff.1 hf
    cases heq
    exact .inr ⟨w', h, ht⟩

theorem rename_cases (source target : String) (w : World) :
    (∃ e, (Host.rename source target : Simulation _) w = (.error e, w)) ∨
      ∃ w', (Host.rename source target : Simulation _) w = (.ok (), w') ∧
        w.store.rename source target = .ok w'.store := by
  rcases attemptWhole_cases w .rename fun s => (s.rename source target).map ((), ·) with
    ⟨e, h⟩ | ⟨_, w', h, hf⟩
  · exact .inl ⟨e, h⟩
  · obtain ⟨t, ht, heq⟩ := map_eq_ok_iff.1 hf
    cases heq
    exact .inr ⟨w', h, ht⟩

/-- Replacing a file does it as a whole, or fails and adds at most directories. -/
theorem replaceFile_cases (path content : String) (w : World) :
    (∃ e w', (replaceFile path content : Simulation _) w = (.error e, w') ∧
        w.store.AddsDirectories w'.store) ∨
      ∃ w', (replaceFile path content : Simulation _) w = (.ok (), w') ∧
        w.store.Replaces w'.store path content := by
  have hdirectories := addsDirectories_createDirectories (parentDirectory path) w
  rw [replaceFile, bind_apply]
  generalize (Host.createDirectories (parentDirectory path) : Simulation _) w = made
    at hdirectories ⊢
  obtain ⟨created, w₁⟩ := made
  cases created with
  | error cause => exact .inl ⟨_, w₁, rfl, hdirectories⟩
  | ok _ =>
    dsimp only
    rw [bind_apply]
    -- from here on a step that fails leaves a temporary file, which is then taken away
    rcases createTemporary_cases (parentDirectory path) w₁ with ⟨e, h⟩ | ⟨temporary, w₂, h, hempty⟩
    · rw [h]
      exact .inl ⟨_, w₁, rfl, hdirectories⟩
    rw [h]
    dsimp only
    rw [bind_apply]
    rcases write_cases temporary content w₂ with ⟨e, h⟩ | ⟨w₃, h, hwrite⟩
    · rw [h]
      exact .inl ⟨_, _, rfl, hdirectories.trans (.of_get?_eq hempty.get?_remove)⟩
    have hfilled := hempty.write hwrite
    rw [h]
    dsimp only
    rw [bind_apply]
    rcases rename_cases temporary path w₃ with ⟨e, h⟩ | ⟨w₄, h, hrename⟩
    · rw [h]
      exact .inl ⟨_, _, rfl, hdirectories.trans (.of_get?_eq hfilled.get?_remove)⟩
    rw [h]
    exact .inr ⟨w₄, rfl, (hfilled.rename hrename).after hdirectories⟩

end Simulation

end ClientGen
