import ClientGen.Model.Convention
import ClientGen.Proofs.Text.Split

namespace ClientGen

/-- The reference ends with a slash and the name of the model. -/
def Model.Names (reference model : String) : Prop :=
  Text.isIdentifier model = true ∧ ∃ path, reference = path ++ "/" ++ model

theorem Model.ofReference_eq_some_iff {reference model : String} :
    ofReference reference = some model ↔ Names reference model := by
  constructor
  · intro h
    obtain ⟨hid, path, hpath⟩ := ofReference_eq_some h
    exact ⟨hid, String.ofList path, String.toList_inj.1 (by simp [hpath])⟩
  · rintro ⟨hid, path, rfl⟩
    have hslash : '/' ∉ model.toList := by
      intro hmem
      have hchar := Text.continuesIdentifier_of_isIdentifier hid _ hmem
      revert hchar
      decide
    have hcut : Text.cutLast '/' (path ++ "/" ++ model).toList =
        some (path.toList, model.toList) := by
      rw [String.toList_append, String.toList_append, List.append_assoc]
      exact Text.cutLast_append hslash path.toList
    simp only [ofReference, hcut, Option.bind_eq_bind, Option.bind_some, String.ofList_toList]
    exact if_pos hid

theorem Model.ofReference_eq_none_iff {reference : String} :
    ofReference reference = none ↔ ¬ ∃ model, Names reference model := by
  simp only [Option.eq_none_iff_forall_ne_some, ne_eq, ofReference_eq_some_iff, not_exists]

theorem Model.ofReference_slash {name : String} (h : Text.isIdentifier name = true) :
    ofReference ("/" ++ name) = some name :=
  ofReference_eq_some_iff.2 ⟨h, "", rfl⟩

namespace Convention

variable {c : Convention} {module m n model v : String}

/-- The name ends with the suffix, or has it further ahead, but not at its beginning. -/
def Matches (c : Convention) (model : String) : Prop :=
  c.valueObjectSuffix.toList <:+ model.toList ∨
    c.valueObjectSuffix.toList <:+: model.toList ∧
      ¬ c.valueObjectSuffix.toList <+: model.toList

theorem isSome_exportOf?_iff (hsuffix : c.valueObjectSuffix ≠ "") (hmodel : model ≠ "") :
    (c.exportOf? model).isSome = true ↔ c.Matches model := by
  have hsuffix : c.valueObjectSuffix.toList ≠ [] := mt String.toList_eq_nil_iff.1 hsuffix
  have hmodel : model.toList ≠ [] := mt String.toList_eq_nil_iff.1 hmodel
  unfold exportOf? Matches
  rw [← Text.isSome_withoutSuffix]
  simp only [List.isEmpty_iff, hsuffix, hmodel, Bool.or_eq_true, or_self, if_false]
  cases Text.withoutSuffix c.valueObjectSuffix.toList model.toList with
  | some entity => simp
  | none =>
    simp only [Option.isSome_none, Bool.false_eq_true, false_or]
    split
    · next e entity rest hcut =>
      have happend := Text.append_of_cutFirst hcut
      refine iff_of_true rfl ⟨⟨_, _, happend.symm⟩, fun ⟨after, hafter⟩ => ?_⟩
      have hstart : model.toList = [] ++ c.valueObjectSuffix.toList ++ after := hafter.symm
      exact absurd (Text.length_le_of_cutFirst hcut hstart) (by simp)
    · next hno =>
      refine iff_of_false (by simp) fun ⟨hwithin, hprefix⟩ => ?_
      cases hcut : Text.cutFirst c.valueObjectSuffix.toList model.toList with
      | none => exact Text.not_infix_of_cutFirst_eq_none hcut hwithin
      | some p =>
        obtain ⟨entity, rest⟩ := p
        cases entity with
        | nil => exact hprefix ⟨rest, (Text.append_of_cutFirst hcut).symm⟩
        | cons e entity => exact hno e entity rest hcut

theorem isSome_validator_iff {found : ModelExport} (h : c.exportOf? model = some found) :
    found.validator.isSome = true ↔ c.validatorSuffix ≠ "" := by
  obtain ⟨entity, rest, _, hvalidator⟩ := cut_of_exportOf? h
  rw [hvalidator, validator]
  split <;> simp_all

def Exports (c : Convention) (module model : String) : Prop :=
  ∃ found, c.exportOf? model = some found ∧ found.module = module

/-- The module exports the model and `v` as its validator. -/
def Validates (c : Convention) (module model v : String) : Prop :=
  ∃ found, c.exportOf? model = some found ∧ found.module = module ∧ found.validator = some v

theorem Validates.exports (h : c.Validates module model v) : c.Exports module model := by
  obtain ⟨found, hfound, hmodule, _⟩ := h
  exact ⟨found, hfound, hmodule⟩

theorem Exports.unique (hm : c.Exports m model) (hn : c.Exports n model) : m = n := by
  obtain ⟨found, hfound, rfl⟩ := hm
  obtain ⟨other, hother, rfl⟩ := hn
  rw [Option.some.inj (hfound.symm.trans hother)]

/-- The names of a model and of its validator differ in the suffix they have in one place. -/
structure Parts (c : Convention) (model v : String) (entity rest : List Char) : Prop where
  model : model.toList = entity ++ c.valueObjectSuffix.toList ++ rest
  validator : v.toList = entity ++ c.validatorSuffix.toList ++ rest

theorem Exports.infix (h : c.Exports module model) :
    c.valueObjectSuffix.toList <:+: model.toList := by
  obtain ⟨found, hfound, _⟩ := h
  obtain ⟨entity, rest, hmodel, _⟩ := cut_of_exportOf? hfound
  rw [hmodel]
  exact List.infix_append _ _ _

theorem Validates.parts (h : c.Validates module model v) :
    c.validatorSuffix.isEmpty = false ∧ ∃ entity rest, c.Parts model v entity rest := by
  obtain ⟨found, hfound, _, hv⟩ := h
  obtain ⟨entity, rest, hmodel, hvalidator⟩ := cut_of_exportOf? hfound
  rw [hvalidator] at hv
  unfold validator at hv
  split at hv
  · cases hv
  · next hempty =>
    cases hv
    exact ⟨by simpa using hempty, entity, rest, hmodel, String.toList_ofList⟩

theorem Validates.infix (h : c.Validates module model v) :
    c.validatorSuffix.toList <:+: v.toList := by
  obtain ⟨_, entity, rest, hparts⟩ := h.parts
  rw [hparts.validator]
  exact List.infix_append _ _ _

/-- The name is brought in by a model that is referred to, as its own, or by one that is sent, as
that of its validator. -/
def Brings (c : Convention) (refers sends : String → Prop) (name : String) : Prop :=
  ∃ module, (refers name ∧ c.Exports module name) ∨
    ∃ model, sends model ∧ c.Validates module model name

theorem Brings.imp {refers sends refers' sends' : String → Prop} {name : String}
    (hr : ∀ model, refers model → refers' model) (hs : ∀ model, sends model → sends' model)
    (h : c.Brings refers sends name) : c.Brings refers' sends' name := by
  obtain ⟨module, ⟨hrefers, he⟩ | ⟨model, hsends, hv⟩⟩ := h
  · exact ⟨module, .inl ⟨hr name hrefers, he⟩⟩
  · exact ⟨module, .inr ⟨model, hs model hsends, hv⟩⟩

theorem not_brings {refers sends : String → Prop} {name : String}
    (hmodel : ¬ c.valueObjectSuffix.toList <:+: name.toList)
    (hvalidator : c.validatorSuffix.isEmpty = true ∨
      ¬ c.validatorSuffix.toList <:+: name.toList) : ¬ c.Brings refers sends name := by
  rintro ⟨module, ⟨_, he⟩ | ⟨model, _, hv⟩⟩
  · exact hmodel he.infix
  · rcases hvalidator with hempty | hvalidator
    · rw [hv.parts.1] at hempty
      cases hempty
    · exact hvalidator hv.infix

/-- Where every validator that is needed, of the models that are sent, is a name of one module
only: no model that is referred to and no other validator brings it in from another module. -/
structure Unambiguous (c : Convention) (refers sends : String → Prop) : Prop where
  model : ∀ {m n model v}, sends model → c.Validates m model v → refers v → c.Exports n v → m = n
  validator : ∀ {m n model other v}, sends model → c.Validates m model v →
    sends other → c.Validates n other v → m = n

theorem unambiguous_of_once {refers sends : String → Prop}
    (hmodel : ∀ m model v, sends model → c.Validates m model v →
      ¬ c.valueObjectSuffix.toList <:+: v.toList)
    (honce : ∀ m model v, sends model → c.Validates m model v → ∀ entity rest entity' rest',
      v.toList = entity ++ c.validatorSuffix.toList ++ rest →
      v.toList = entity' ++ c.validatorSuffix.toList ++ rest' → entity = entity') :
    c.Unambiguous refers sends where
  model hs hv _ he := absurd he.infix (hmodel _ _ _ hs hv)
  validator {m n model other v} hs hv hs' hv' := by
    obtain ⟨_, entity, rest, hparts⟩ := hv.parts
    obtain ⟨_, entity', rest', hparts'⟩ := hv'.parts
    have hentity : entity = entity' :=
      honce m model v hs hv entity rest entity' rest' hparts.validator hparts'.validator
    subst hentity
    have hrest : rest = rest' :=
      List.append_cancel_left (hparts.validator.symm.trans hparts'.validator)
    subst hrest
    have hother : model = other := String.toList_inj.1 (hparts.model.trans hparts'.model.symm)
    subst hother
    exact hv.exports.unique hv'.exports

end Convention

end ClientGen
