import ClientGen.Proofs.Client.Balance
import ClientGen.Proofs.Files.Replacing

namespace ClientGen

def Store.SameFiles (s t : Store) : Prop :=
  ∀ place content, t.get? place = some (.file content) ↔ s.get? place = some (.file content)

namespace Simulation

variable {w w' : World}

theorem store_loadDocument (path : String) (w : World) :
    ((loadDocument path : Simulation (Except RunError ApiDocument)) w).2.store = w.store := by
  have hread := store_read path w
  rw [loadDocument, bind_apply]
  generalize (Host.read path : Simulation (Except OsError String)) w = found at hread ⊢
  obtain ⟨text, w'⟩ := found
  cases text <;> exact hread

/-- A run fails before the file is written or while it is, prints the client, or writes it. -/
theorem generateFile_cases (input output : String) (config : Config) (dryRun : Bool) (w : World) :
    (∃ e w', (generateFile input output config dryRun : Simulation _) w = (.error e, w') ∧
        w.store.AddsDirectories w'.store) ∨
      ∃ g w', (generateFile input output config dryRun : Simulation _) w = (.ok g, w') ∧
        if dryRun then w'.store = w.store else w.store.Replaces w'.store output g.code := by
  have hload := store_loadDocument input w
  rw [generateFile, bind_apply]
  generalize (loadDocument input : Simulation _) w = loaded at hload ⊢
  obtain ⟨doc, w₁⟩ := loaded
  cases doc with
  | error e => exact .inl ⟨e, w₁, rfl, .of_get?_eq fun _ => by rw [hload]⟩
  | ok doc =>
    dsimp only at hload ⊢
    cases doc.generateClient config with
    | error e => exact .inl ⟨_, w₁, rfl, .of_get?_eq fun _ => by rw [hload]⟩
    | ok g =>
      cases dryRun with
      | true => exact .inr ⟨g, _, rfl, hload⟩
      | false =>
        simp only [Bool.false_eq_true, if_false, bind_apply]
        rw [← hload]
        rcases replaceFile_cases output g.code w₁ with ⟨e, w', h, hadds⟩ | ⟨w', h, hreplaces⟩
        · rw [h]
          exact .inl ⟨_, w', rfl, hadds⟩
        · rw [h]
          exact .inr ⟨g, w', rfl, hreplaces⟩

end Simulation

/-- When a run fails, at whatever step, or only prints, all files are as they were, so the one at
the output is and no temporary file is left. When it succeeds the output holds the client, and
no other file has changed. -/
theorem generateFile_keeps_or_replaces (input output : String) (config : Config) (dryRun : Bool)
    {w w' : World} {result : Except RunError GeneratedClient}
    (h : (generateFile input output config dryRun : Simulation _) w = (result, w')) :
    ((∃ e, result = .error e) ∨ dryRun = true →
      w'.store.fileAt? output = w.store.fileAt? output ∧ w.store.SameFiles w'.store) ∧
    (∀ g, result = .ok g → dryRun = false → w.store.Replaces w'.store output g.code) := by
  rcases Simulation.generateFile_cases input output config dryRun w with
    ⟨e, w₁, hrun, hadds⟩ | ⟨g, w₁, hrun, hstore⟩
  · cases hrun.symm.trans h
    refine ⟨fun _ => ⟨hadds.fileAt?_eq output, hadds.file_iff⟩, fun g hg => ?_⟩
    cases hg
  · cases hrun.symm.trans h
    constructor
    · rintro (⟨e, he⟩ | rfl)
      · cases he
      · rw [if_pos rfl] at hstore
        rw [hstore]
        exact ⟨rfl, fun _ _ => Iff.rfl⟩
    · rintro g hg rfl
      cases hg
      exact hstore

def earlierStore : Store := ⟨[
  (["api.json"], .file "\x7b\x7d".toUTF8),
  (["sdk.ts"], .file "// earlier".toUTF8)]⟩

def busyRename (step : HostStep) : Option OsError :=
  if step = .rename then some .busy else none

theorem result_generateFile_of_client (output : String) {input text : String} {config : Config}
    {w : World} {doc : ApiDocument} {g : GeneratedClient}
    (hread : (Host.read input : Simulation _) w = (.ok text, w))
    (hdoc : ApiDocument.ofText text = .ok doc) (hclient : doc.generateClient config = .ok g) :
    ((generateFile input output config false : Simulation _) w).1 =
      (((replaceFile output g.code : Simulation _) w).1.mapError RunError.write).map
        fun _ => g := by
  have hload : (loadDocument input : Simulation _) w = (.ok doc, w) := by
    rw [loadDocument, Simulation.bind_apply, hread]
    dsimp only
    rw [hdoc]
    rfl
  rw [generateFile, Simulation.bind_apply, hload]
  dsimp only
  rw [hclient]
  simp only [Bool.false_eq_true, if_false, Simulation.bind_apply]
  generalize (replaceFile output g.code : Simulation _) w = run
  obtain ⟨result, w⟩ := run
  cases result <;> rfl

theorem read_earlierStore (failing : HostStep → Option OsError) (h : failing .read = none) :
    (Host.read "api.json" : Simulation _) ⟨earlierStore, failing, "", ""⟩ =
      (.ok "\x7b\x7d", ⟨earlierStore, failing, "", ""⟩) := by
  have hread : earlierStore.read "api.json" = .ok "\x7b\x7d" := by decide +kernel
  change World.attempt _ .read (fun s => (s.read "api.json", s)) = _
  simp only [World.attempt, h, hread]

theorem generateFile_keeps_or_replaces_earlierStore :
    (∃ e w', (generateFile "api.json" "sdk.ts" {} false : Simulation _)
        ⟨earlierStore, busyRename, "", ""⟩ = (.error e, w') ∧
      w'.store.fileAt? "sdk.ts" = some "// earlier".toUTF8) ∧
    ∃ g w', (generateFile "api.json" "sdk.ts" {} false : Simulation _)
        ⟨earlierStore, fun _ => none, "", ""⟩ = (.ok g, w') ∧
      w'.store.fileAt? "sdk.ts" = some g.code.toUTF8 := by
  obtain ⟨doc, hdoc⟩ : ∃ doc, ApiDocument.ofText "\x7b\x7d" = .ok doc := ⟨{}, by cbv⟩
  obtain ⟨g, hclient⟩ : ∃ g, doc.generateClient {} = .ok g :=
    ⟨_, doc.generateClient_of_skip rfl rfl⟩
  constructor
  · have hfails := result_generateFile_of_client "sdk.ts"
      (read_earlierStore busyRename rfl) hdoc hclient
    generalize hrun : (generateFile "api.json" "sdk.ts" {} false : Simulation _)
      ⟨earlierStore, busyRename, "", ""⟩ = run at hfails ⊢
    obtain ⟨result, w'⟩ := run
    have herror : result = .error (.write ⟨"sdk.ts", .busy⟩) := hfails
    subst herror
    obtain ⟨hkept, _⟩ := generateFile_keeps_or_replaces _ _ _ _ hrun
    exact ⟨_, w', rfl, (hkept (.inl ⟨_, rfl⟩)).1⟩
  · have hwrites := result_generateFile_of_client "sdk.ts"
      (read_earlierStore (fun _ => none) rfl) hdoc hclient
    generalize hrun : (generateFile "api.json" "sdk.ts" {} false : Simulation _)
      ⟨earlierStore, fun _ => none, "", ""⟩ = run at hwrites ⊢
    obtain ⟨result, w'⟩ := run
    have hok : result = .ok g := hwrites
    subst hok
    obtain ⟨_, hreplaced⟩ := generateFile_keeps_or_replaces _ _ _ _ hrun
    exact ⟨g, w', rfl, (hreplaced g rfl rfl).file⟩

end ClientGen
