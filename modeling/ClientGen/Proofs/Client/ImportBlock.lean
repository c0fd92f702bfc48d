import ClientGen.Proofs.Model.Symbols
import ClientGen.Proofs.Client.ImportedSymbols
import ClientGen.Proofs.Text.Encoding
/-! The imports at the top of a file. In increasing order, with no module that nothing is imported
from, they are told by which symbols stand in which module: they stand in the order of their bytes,
whatever the order of the operations that bring them along. -/
namespace ClientGen

theorem eq_of_increasing_of_mem_iff {l k : List String} (hl : l.Pairwise (· < ·))
    (hk : k.Pairwise (· < ·)) (h : ∀ s, s ∈ l ↔ s ∈ k) : l = k := by
  have hperm : l.Perm k :=
    (List.perm_ext_iff_of_nodup (nodup_of_increasing hl) (nodup_of_increasing hk)).2 h
  apply List.Perm.eq_of_pairwise _ hl hk hperm
  intro a b _ _ hab hba
  exact absurd hba (String.lt_asymm hab)

namespace Imports

/-- In increasing order, and with symbols from each module. -/
structure Canonical (i : Imports) : Prop extends i.Increasing where
  nonempty : ∀ p ∈ i.modules, p.2 ≠ []

theorem nonempty_insertInto {module symbol : String} {ms : List (String × List String)}
    (h : ∀ p ∈ ms, p.2 ≠ []) : ∀ p ∈ insertInto module symbol ms, p.2 ≠ [] := by
  induction ms with
  | nil => simp [insertInto]
  | cons q rest ih =>
    obtain ⟨m, symbols⟩ := q
    obtain ⟨hm, hrest⟩ := List.forall_mem_cons.1 h
    simp only [insertInto]
    split
    · exact List.forall_mem_cons.2 ⟨insertIncreasing_ne_nil _ _, hrest⟩
    · split
      · exact List.forall_mem_cons.2 ⟨List.cons_ne_nil _ _, h⟩
      · exact List.forall_mem_cons.2 ⟨hm, ih hrest⟩

namespace Canonical

theorem empty : Canonical {} where
  toIncreasing := .empty
  nonempty := by simp

theorem insert {i : Imports} (h : i.Canonical) (module symbol : String) :
    (i.insert module symbol).Canonical where
  toIncreasing := h.toIncreasing.insert module symbol
  nonempty := nonempty_insertInto h.nonempty

theorem insertAll {i : Imports} (h : i.Canonical) (pairs : List (String × String)) :
    (i.insertAll pairs).Canonical := by
  unfold Imports.insertAll
  induction pairs generalizing i with
  | nil => exact h
  | cons p pairs ih => exact ih (h.insert p.1 p.2)

theorem mem_symbols_iff {i : Imports} (h : i.Canonical) {p : String × List String}
    (hp : p ∈ i.modules) {s : String} : s ∈ p.2 ↔ i.Has p.1 s := by
  constructor
  · intro hs
    exact ⟨p, hp, rfl, hs⟩
  · rintro ⟨q, hq, hqp, hs⟩
    rwa [← List.inj_on_of_nodup_map h.nodup_modules hq hp hqp]

theorem mem_modules {i j : Imports} (hi : i.Canonical) (hj : j.Canonical)
    (h : ∀ m s, i.Has m s ↔ j.Has m s) {p : String × List String} (hp : p ∈ i.modules) :
    p ∈ j.modules := by
  obtain ⟨s, hs⟩ := List.exists_mem_of_ne_nil _ (hi.nonempty p hp)
  obtain ⟨q, hq, hqp, _⟩ := (h p.1 s).1 ⟨p, hp, rfl, hs⟩
  have hsymbols : p.2 = q.2 := by
    apply eq_of_increasing_of_mem_iff (hi.symbols p hp) (hj.symbols q hq)
    intro t
    rw [hi.mem_symbols_iff hp, hj.mem_symbols_iff hq, h, hqp]
  rwa [Prod.ext hqp.symm hsymbols]

theorem ext {i j : Imports} (hi : i.Canonical) (hj : j.Canonical)
    (h : ∀ m s, i.Has m s ↔ j.Has m s) : i = j := by
  have hmem (p : String × List String) : p ∈ i.modules ↔ p ∈ j.modules :=
    ⟨hi.mem_modules hj h, hj.mem_modules hi fun m s => (h m s).symm⟩
  have hperm : i.modules.Perm j.modules :=
    (List.perm_ext_iff_of_nodup hi.nodup_modules.of_map hj.nodup_modules.of_map).2 hmem
  have hmodules : i.modules = j.modules := by
    apply List.Perm.eq_of_pairwise _ (List.pairwise_map.1 hi.modules)
      (List.pairwise_map.1 hj.modules) hperm
    intro p q _ _ hpq hqp
    exact absurd hqp (String.lt_asymm hpq)
  cases i
  cases j
  exact congrArg Imports.mk hmodules

end Canonical

end Imports

open Client Script

structure PathItem.Reorders (p q : PathItem) : Prop where
  operations : p.operations.Perm q.operations
  unsupportedVerbs : p.unsupportedVerbs.Perm q.unsupportedVerbs

/-- The paths of `e` are those of `d` in any order, and so is what is declared on each. -/
def ApiDocument.Reorders (d e : ApiDocument) : Prop :=
  ∃ paths, d.paths.Perm paths ∧
    List.Forall₂ (fun p q => p.1 = q.1 ∧ p.2.Reorders q.2) paths e.paths

namespace ApiDocument.Reorders

variable {d e : ApiDocument}

theorem perm_endpoints (h : d.Reorders e) : d.endpoints.Perm e.endpoints := by
  obtain ⟨paths, hperm, hitems⟩ := h
  unfold endpoints
  refine (hperm.flatMap_right _).trans ?_
  clear hperm
  generalize e.paths = others at hitems
  induction hitems with
  | nil => exact .nil
  | cons hpq _ ih =>
    obtain ⟨hpath, hitem⟩ := hpq
    rw [List.flatMap_cons, List.flatMap_cons, hpath]
    exact (hitem.operations.map _).append ih

theorem mem_accepted_iff (h : d.Reorders e) (separator : String) {a : Endpoint} :
    a ∈ d.accepted separator ↔ a ∈ e.accepted separator :=
  (h.perm_endpoints.filter _).mem_iff

variable {config : Config}

theorem refers_iff (h : d.Reorders e) {model : String} :
    d.Refers config model ↔ e.Refers config model := by
  simp only [Refers, h.mem_accepted_iff]

theorem sends_iff (h : d.Reorders e) {model : String} :
    d.Sends config model ↔ e.Sends config model := by
  simp only [Sends, h.mem_accepted_iff]

end ApiDocument.Reorders

namespace ApiDocument

theorem canonical_imports (doc : ApiDocument) (config : Config) :
    (doc.clientParts config).imports.Canonical :=
  Imports.Canonical.empty.insertAll _

theorem Reorders.imports_eq {d e : ApiDocument} (h : d.Reorders e) (config : Config) :
    (d.clientParts config).imports = (e.clientParts config).imports := by
  apply (d.canonical_imports config).ext (e.canonical_imports config)
  intro m s
  simp only [has_imports_iff, h.refers_iff, h.sends_iff]

/-- The imports of a file stand in the order of their modules' bytes, each of one symbol or more in
the order of theirs; and the same document in another order has the same imports. -/
theorem imports_in_byte_order (doc : ApiDocument) (config : Config) :
    ((doc.file config).imports.Pairwise fun i j => Text.bytes i.module < Text.bytes j.module) ∧
      (∀ i ∈ (doc.file config).imports, i.symbols ≠ [] ∧
        i.symbols.Pairwise fun s t => Text.bytes s < Text.bytes t) ∧
      ∀ other : ApiDocument, doc.Reorders other →
        (other.file config).imports = (doc.file config).imports := by
  have hcanonical := doc.canonical_imports config
  simp only [Text.bytes_lt_bytes_iff, imports_file]
  refine ⟨?_, ?_, ?_⟩
  · exact List.pairwise_map.2 (List.pairwise_map.1 hcanonical.modules)
  · intro i hi
    obtain ⟨p, hp, rfl⟩ := List.mem_map.1 hi
    exact ⟨hcanonical.nonempty p hp, hcanonical.symbols p hp⟩
  · intro other h
    rw [h.imports_eq config]

end ApiDocument

/-- One id on two paths; what each sends or returns is imported from a module of its own. -/
def shuffledDocument : ApiDocument where
  paths := [
    ("/zebras", {
      operations := [
        (.get, {
          operationId := some "animals_list"
          responses := [("default", {
            content := [("application/json", {
              schema := some { reference := some "#/ZebraDto" } })] })] }),
        (.post, {
          operationId := some "animals_list"
          requestBody := some {
            content := [("application/json", {
              schema := some { reference := some "#/ZebraDtoNew" } })] } })] }),
    ("/ants", {
      operations := [(.put, {
        operationId := some "animals_list"
        requestBody := some {
          content := [("application/json", {
            schema := some { reference := some "#/AntDto" } })] } })] })]

def reversedDocument : ApiDocument where
  paths := shuffledDocument.paths.reverse.map fun p =>
    (p.1, { p.2 with operations := p.2.operations.reverse })

theorem reorders_shuffledDocument : shuffledDocument.Reorders reversedDocument := by
  refine ⟨shuffledDocument.paths.reverse, (List.reverse_perm _).symm, ?_⟩
  unfold reversedDocument
  rw [List.forall₂_map_right_iff, List.forall₂_same]
  exact fun p _ => ⟨rfl, (List.reverse_perm _).symm, .refl _⟩

theorem imports_in_byte_order_shuffledDocument :
    shuffledDocument.Reorders reversedDocument ∧
      (shuffledDocument.group {}).groups ≠ (reversedDocument.group {}).groups ∧
      (reversedDocument.file {}).imports = (shuffledDocument.file {}).imports ∧
      (shuffledDocument.file {}).imports =
        [⟨"./zod", ["AntDto", "AntZod", "ZebraDto"]⟩,
          ⟨"./zodExt/Zebra", ["ZebraDtoNew", "ZebraZodNew"]⟩] := by
  have hgroups : (shuffledDocument.group {}).groups ≠ (reversedDocument.group {}).groups := by
    intro h
    have hpaths := congrArg (fun g : Groups => (g.methods "animals").map fun p => p.2.path) h
    revert hpaths
    decide +kernel
  have himports : (shuffledDocument.file {}).imports =
      [⟨"./zod", ["AntDto", "AntZod", "ZebraDto"]⟩,
        ⟨"./zodExt/Zebra", ["ZebraDtoNew", "ZebraZodNew"]⟩] := by
    decide +kernel
  exact ⟨reorders_shuffledDocument, hgroups,
    (shuffledDocument.imports_in_byte_order {}).2.2 _ reorders_shuffledDocument, himports⟩

end ClientGen
