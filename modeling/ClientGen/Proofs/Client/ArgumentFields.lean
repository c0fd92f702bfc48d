import ClientGen.Proofs.Client.QueryFields
import Mathlib.Data.List.Induction
/-! The fields of the query argument, and the reports made along with them, in order. What makes
them is told by places in the list of parameters: an entry counts unless one of its name stands in
front of it. -/
namespace ClientGen

open Client Script

namespace Parameter

/-- Whether a parameter of the same name stands in front of the entry at its place. -/
def isRepeat (ps : List Parameter) (entry : Parameter × Nat) : Bool :=
  (ps.take entry.2).any (·.name == entry.1.name)

def firsts (ps : List Parameter) : List Parameter :=
  (ps.zipIdx.filter fun entry => !isRepeat ps entry).map Prod.fst

def repeats (ps : List Parameter) : List Parameter :=
  (ps.zipIdx.filter (isRepeat ps)).map Prod.fst

theorem isRepeat_append (ps qs : List Parameter) {entry : Parameter × Nat}
    (h : entry ∈ ps.zipIdx) : isRepeat (ps ++ qs) entry = isRepeat ps entry := by
  have hlt := List.snd_lt_of_mem_zipIdx h
  unfold isRepeat
  rw [List.take_append_of_le_length (by omega)]

theorem filter_isRepeat_snoc (keep : Bool → Bool) (ps : List Parameter) (p : Parameter) :
    ((ps ++ [p]).zipIdx.filter fun entry => keep (isRepeat (ps ++ [p]) entry)).map Prod.fst =
      (ps.zipIdx.filter fun entry => keep (isRepeat ps entry)).map Prod.fst ++
        if keep (ps.any (·.name == p.name)) then [p] else [] := by
  have hold : (ps.zipIdx.filter fun entry => keep (isRepeat (ps ++ [p]) entry)) =
      ps.zipIdx.filter fun entry => keep (isRepeat ps entry) :=
    List.filter_congr fun entry hentry => by rw [isRepeat_append ps [p] hentry]
  have hlast : isRepeat (ps ++ [p]) (p, ps.length) = ps.any (·.name == p.name) := by
    simp [isRepeat]
  rw [List.zipIdx_append, List.filter_append, hold, List.zipIdx_singleton, Nat.zero_add,
    List.filter_singleton, hlast, List.map_append]
  cases keep (ps.any (·.name == p.name)) <;> rfl

theorem firsts_snoc (ps : List Parameter) (p : Parameter) :
    firsts (ps ++ [p]) = firsts ps ++ if ps.any (·.name == p.name) then [] else [p] := by
  refine (filter_isRepeat_snoc (!·) ps p).trans ?_
  cases ps.any (·.name == p.name) <;> rfl

theorem repeats_snoc (ps : List Parameter) (p : Parameter) :
    repeats (ps ++ [p]) = repeats ps ++ if ps.any (·.name == p.name) then [p] else [] :=
  filter_isRepeat_snoc id ps p

theorem mem_repeats {before : List Parameter} {p q : Parameter} (after : List Parameter)
    (hq : q ∈ before) (hname : q.name = p.name) : p ∈ repeats (before ++ p :: after) := by
  have hentry : (p, before.length) ∈ (before ++ p :: after).zipIdx := by
    rw [List.mem_zipIdx_iff_getElem?]
    simp
  have hrepeat : isRepeat (before ++ p :: after) (p, before.length) = true := by
    unfold isRepeat
    rw [List.take_left, List.any_eq_true]
    exact ⟨q, hq, by simp [hname]⟩
  exact List.mem_map.2 ⟨_, List.mem_filter.2 ⟨hentry, hrepeat⟩, rfl⟩

theorem mem_of_mem_firsts {ps : List Parameter} {p : Parameter} (h : p ∈ firsts ps) : p ∈ ps := by
  obtain ⟨entry, hentry, rfl⟩ := List.mem_map.1 h
  exact List.fst_mem_of_mem_zipIdx (List.mem_filter.1 hentry).1

theorem mem_of_mem_repeats {ps : List Parameter} {p : Parameter} (h : p ∈ repeats ps) :
    p ∈ ps := by
  obtain ⟨entry, hentry, rfl⟩ := List.mem_map.1 h
  exact List.fst_mem_of_mem_zipIdx (List.mem_filter.1 hentry).1

theorem any_firsts (ps : List Parameter) (name : String) :
    (firsts ps).any (·.name == name) = ps.any (·.name == name) := by
  induction ps using List.reverseRecOn with
  | nil => rfl
  | append_singleton ps p ih =>
    rw [firsts_snoc, List.any_append, List.any_append, ih]
    by_cases hname : p.name = name
    · subst hname
      cases ps.any (·.name == p.name) <;> simp
    · split <;> simp [hname]

end Parameter

/-- The placeholders of the path that no parameter of the query or the path declares, each
once. -/
def Endpoint.undeclared (e : Endpoint) : List String :=
  ((Path.placeholders e.path).filter fun name =>
    !e.operation.queryParameters.any (·.name == name)).eraseDups

namespace Client

section Passes

variable (context path : String)

theorem declaredFields_append (acc : Made (List Field)) (ps qs : List Parameter) :
    declaredFields context acc (ps ++ qs) =
      declaredFields context (declaredFields context acc ps) qs := by
  induction ps generalizing acc with
  | nil => rfl
  | cons p ps ih =>
    rw [List.cons_append, declaredFields, declaredFields]
    split <;> exact ih _

theorem hasField_firsts (ps : List Parameter) (name : String) :
    hasField ((Parameter.firsts ps).map declaredField) name = ps.any (·.name == name) := by
  rw [← Parameter.any_firsts]
  simp [hasField, declaredField, Function.comp_def]

/-- The pass over the parameters: the first of each name make fields, the others are reported. -/
theorem declaredFields_eq (reports : List Diagnostic) (ps : List Parameter) :
    declaredFields context { value := [], diagnostics := reports } ps =
      { value := (Parameter.firsts ps).map declaredField
        diagnostics := reports ++ (Parameter.repeats ps).map (skipped context) } := by
  induction ps using List.reverseRecOn with
  | nil => simp [declaredFields, Parameter.firsts, Parameter.repeats]
  | append_singleton ps p ih =>
    rw [declaredFields_append, ih, Parameter.firsts_snoc, Parameter.repeats_snoc]
    simp only [declaredFields, hasField_firsts]
    split <;> simp

/-- The pass over the placeholders: each that has no field yet gets one, once, and is reported. -/
theorem placeholderFields_eq (acc : Made (List Field)) (names : List String) :
    placeholderFields path acc names =
      { acc with
        value := acc.value ++
          (names.filter fun name => !hasField acc.value name).eraseDups.map placeholderField
        diagnostics := acc.diagnostics ++
          (names.filter fun name => !hasField acc.value name).eraseDups.map
            (.undeclaredPathParam path) } := by
  induction names generalizing acc with
  | nil => simp [placeholderFields]
  | cons name names ih =>
    rw [placeholderFields]
    split
    · next hname => rw [ih, List.filter_cons_of_neg (by simp [hname])]
    · next hname =>
      -- the new field takes the further mentions of the name away
      have hrest : (names.filter fun n => !hasField (acc.value ++ [placeholderField name]) n) =
          (names.filter fun n => !hasField acc.value n).filter fun n => !n == name := by
        rw [List.filter_filter]
        apply List.filter_congr
        intro n _
        simp [hasField, placeholderField, Bool.beq_comm, Bool.and_comm]
      rw [ih, List.filter_cons_of_pos (by simp [hname]), List.eraseDups_cons, hrest]
      simp

end Passes

theorem argumentFields_eq (context : String) (e : Endpoint) :
    argumentFields context e =
      { value := (Parameter.firsts e.operation.queryParameters).map declaredField ++
          e.undeclared.map placeholderField
        diagnostics :=
          (e.operation.parameters.filter fun p =>
            p.location == .header || p.location == .cookie).map (skipped context) ++
          (Parameter.repeats e.operation.queryParameters).map (skipped context) ++
          e.undeclared.map (.undeclaredPathParam e.path) } := by
  unfold argumentFields Endpoint.undeclared
  dsimp only
  rw [declaredFields_eq, placeholderFields_eq]
  simp only [hasField_firsts]

theorem mem_diagnostics_argumentFields {context : String} {e : Endpoint} {d : Diagnostic}
    (h : d ∈ (argumentFields context e).diagnostics) :
    (∃ p : Parameter, (p.location ≠ .body ∧ p.location ≠ .formData) ∧ d = skipped context p) ∨
      ∃ name, d = .undeclaredPathParam e.path name := by
  simp only [argumentFields_eq, List.mem_append, List.mem_map] at h
  rcases h with (⟨p, hp, rfl⟩ | ⟨p, hp, rfl⟩) | ⟨name, -, rfl⟩
  · have hplace := (List.mem_filter.1 hp).2
    exact .inl ⟨p, by constructor <;> intro hl <;> simp [hl] at hplace, rfl⟩
  · have hplace := (List.mem_filter.1 (Parameter.mem_of_mem_repeats hp)).2
    exact .inl ⟨p, by constructor <;> intro hl <;> simp [hl] at hplace, rfl⟩
  · exact .inr ⟨name, rfl⟩

theorem cases_of_mem_makeMethod {config : Config} {controller name : String} {e : Endpoint}
    {d : Diagnostic} (h : d ∈ (makeMethod config controller name e).diagnostics) :
    TypeReport (methodContext controller name e) d ∨
      (∃ p : Parameter, (p.location ≠ .body ∧ p.location ≠ .formData) ∧
        d = skipped (methodContext controller name e) p) ∨
      ∃ name, d = .undeclaredPathParam e.path name := by
  rcases mem_diagnostics_makeMethod_iff.1 h with h | h | ⟨-, h⟩
  · exact .inl (typeReport_of_mem_resultModel h)
  · exact .inr (mem_diagnostics_argumentFields h)
  · exact .inl (typeReport_of_mem_dataArgument h)

theorem mem_names_argumentFields {context : String} {e : Endpoint} {name : String}
    (h : name ∈ Path.placeholders e.path) :
    name ∈ (argumentFields context e).value.map Field.name := by
  rw [argumentFields_eq, List.map_append, List.mem_append]
  by_cases hdeclared : e.operation.queryParameters.any (·.name == name) = true
  · left
    rwa [← hasField_iff, hasField_firsts]
  · right
    have hmem : name ∈ e.undeclared :=
      List.mem_eraseDups.2 (List.mem_filter.2 ⟨h, by simp [hdeclared]⟩)
    simpa [placeholderField] using hmem

end Client

end ClientGen
