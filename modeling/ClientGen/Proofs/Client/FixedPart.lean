import ClientGen.Proofs.Script.NeatLayout
import ClientGen.Client.Generate

namespace ClientGen.Client

open Script
open Text (isIdentifier)

theorem wellNamed_any : TypeTerm.any.WellNamed := .named (by decide)

theorem wellNamed_stringType : stringType.WellNamed := .named (by decide)

theorem wellNamed_generic {name : String} (h : isIdentifier name = true) {t : TypeTerm}
    (ht : t.WellNamed) : (TypeTerm.generic name [t]).WellNamed :=
  .generic h (List.cons_ne_nil _ _) (List.forall_mem_singleton.2 ht)

theorem wellNamed_clientOptions : clientOptions.WellNamed :=
  wellNamed_generic (by decide) (.named (by decide))

theorem wellNamed_promise {t : TypeTerm} (h : t.WellNamed) : (promise t).WellNamed :=
  wellNamed_generic (by decide) h

theorem wellNamed_pair {t u : TypeTerm} (ht : t.WellNamed) (hu : u.WellNamed) :
    (TypeTerm.union [t, u]).WellNamed :=
  .union (List.cons_ne_nil _ _) (List.forall_mem_cons.2 ⟨ht, List.forall_mem_singleton.2 hu⟩)

theorem wellNamed_literals {values : List String} (h : values ≠ []) :
    (TypeTerm.union (values.map .literal)).WellNamed :=
  .union (mt List.map_eq_nil_iff.1 h) (List.forall_mem_map.2 fun value _ => .literal value)

theorem wellNamed_typeOf {name : String} (h : isIdentifier name = true) :
    (TypeTerm.typeOf name).WellNamed := by
  have hpath : (TypeTerm.typeOf (Text.joinWith "." [name])).WellNamed :=
    .typeOf (List.cons_ne_nil _ _) (List.forall_mem_singleton.2 h)
  exact hpath

theorem typeParamList_anyParam : typeParamList [anyParam] = "<T = any>" := by
  simp [typeParamList, anyParam, TypeParam.text, TypeTerm.any, TypeTerm.text, Text.joinWith]

theorem plainTypeParams_anyParam : PlainTypeParams [anyParam] := by
  constructor <;>
  · rw [typeParamList_anyParam]
    decide

theorem wellNamed_plainParam {name : String} (hn : isIdentifier name = true) {t : TypeTerm}
    (ht : t.WellNamed) (optional : Bool) :
    Param.WellNamed { name, type := some t, optional } where
  name := hn
  type := by simpa using ht
  defaultValue := by simp

theorem wellNamed_untypedQuery : untypedQuery.WellNamed :=
  wellNamed_plainParam (by decide) (.named (by decide)) true

theorem wellNamed_optionsArgument : optionsArgument.WellNamed :=
  wellNamed_plainParam (by decide) wellNamed_clientOptions true

theorem wellNamed_pathParam : Param.WellNamed { name := "path", type := some stringType } :=
  wellNamed_plainParam (by decide) wellNamed_stringType false

theorem wellNamed_fixedInterfaces : ∀ i ∈ fixedInterfaces, i.WellNamed := by
  have hkeyed : IndexSignature.WellNamed ⟨"key", stringType, .named "T"⟩ :=
    ⟨by decide, wellNamed_stringType, .named (by decide)⟩
  have hverbs := @wellNamed_literals (Verb.all.map Verb.name) (by decide)
  rw [List.map_map] at hverbs
  have hheaders : (TypeTerm.generic keyedName [stringType]).WellNamed :=
    wellNamed_generic (by decide) wellNamed_stringType
  simp only [fixedInterfaces, List.forall_mem_cons]
  refine ⟨⟨by decide, plainTypeParams_anyParam, by simpa using hkeyed, by simp⟩,
    ⟨by decide, .nil, by simp, ?_⟩, ⟨by decide, .nil, by simp, ?_⟩, by simp⟩
  · simpa using ⟨wellNamed_stringType, wellNamed_typeOf (by decide)⟩
  · simp only [List.forall_mem_cons]
    exact ⟨hverbs, wellNamed_stringType, .named (by decide), wellNamed_any, hheaders, by simp⟩

theorem wellNamedHead_sending {name : String} (h : isIdentifier name = true) :
    WellNamedHead name [anyParam] [{ name := "options", type := some (.named requestTypeName) }]
      (some (promise (.named "T"))) where
  name := h
  typeParams := plainTypeParams_anyParam
  params :=
    List.forall_mem_singleton.2 (wellNamed_plainParam (by decide) (.named (by decide)) false)
  returnType := by simpa using wellNamed_promise (.named (by decide))

theorem wellNamedHead_replacePathParams :
    WellNamedHead replacePathParams.name [] replacePathParams.params
      replacePathParams.returnType where
  name := by decide
  typeParams := .nil
  params := by simpa [replacePathParams] using ⟨wellNamed_pathParam, wellNamed_untypedQuery⟩
  returnType := by simpa [replacePathParams] using wellNamed_stringType

theorem wellNamedHead_omitPathParams :
    WellNamedHead omitPathParams.name [] omitPathParams.params omitPathParams.returnType where
  name := by decide
  typeParams := .nil
  params := by simpa [omitPathParams] using ⟨wellNamed_pathParam, wellNamed_untypedQuery⟩
  returnType := by
    simpa [omitPathParams] using wellNamed_pair (.named (by decide)) (.named (by decide))

/-- All statements of the fixed part, with the braces that are open around them. -/
theorem wellFormed_fixedBodies (name : String) :
    (∀ b ∈ fixedFunctions.map Function.body, b.WellFormed ['}']) ∧
      ∀ b ∈ (baseClass name).methods.map Method.body, b.WellFormed ['}', '}'] := by
  simp only [fixedFunctions, transport, replacePathParams, omitPathParams, baseClass,
    ClassDeclaration.methods, Member.method?, List.filterMap_cons, List.filterMap_nil,
    List.map_cons, List.map_nil, List.forall_mem_cons, List.not_mem_nil, false_implies,
    implies_true, and_true, Body.WellFormed]
  -- character by character, which is less to compute than the literals
  repeat rw [String.toList_ofList]
  and_intros <;> decide +kernel

theorem wellFormed_fixedFunctions : ∀ f ∈ fixedFunctions, f.WellFormed := by
  intro f hf
  refine ⟨?_, (wellFormed_fixedBodies "").1 _ (List.mem_map_of_mem hf)⟩
  simp only [fixedFunctions, List.mem_cons, List.not_mem_nil, or_false] at hf
  rcases hf with rfl | rfl | rfl
  · exact wellNamedHead_sending (by decide)
  · exact wellNamedHead_replacePathParams
  · exact wellNamedHead_omitPathParams

theorem wellFormed_baseMethods (name : String) :
    ∀ m ∈ (baseClass name).methods, m.WellFormed := by
  intro m hm
  refine ⟨?_, (wellFormed_fixedBodies name).2 _ (List.mem_map_of_mem hm)⟩
  simp only [baseClass, ClassDeclaration.methods, Member.method?, List.filterMap_cons,
    List.filterMap_nil, List.mem_cons, List.not_mem_nil, or_false] at hm
  rcases hm with rfl | rfl
  · refine ⟨by decide, .nil, List.forall_mem_singleton.2 ?_, by simpa using .named (by decide)⟩
    exact wellNamed_plainParam (by decide) wellNamed_clientOptions false
  · exact wellNamedHead_sending (by decide)

theorem wellFormed_optionsConstructor {lines : List String}
    (h : (Body.statements lines).WellFormed ['}', '}']) :
    Constructor.WellFormed { params := [optionsArgument], body := lines } :=
  ⟨List.forall_mem_singleton.2 wellNamed_optionsArgument, h⟩

theorem wellFormed_baseConstructor :
    Constructor.WellFormed
      { params := [optionsArgument], body := ["if (options) this.init(options);"] } :=
  wellFormed_optionsConstructor ⟨by decide +kernel, by decide +kernel⟩

theorem alike_baseClass {name : String} (h : Ordinary name) :
    (baseClass name).Alike (baseClass name) := by
  have hmethods := wellFormed_baseMethods name
  refine ⟨rfl, rfl, rfl, ?_, h, by simp [baseClass]⟩
  refine .cons (.property ?_) (.cons (.property ?_) (.cons (.constructor ?_) (.cons (.method ?_)
    (.cons (.method ?_) .nil))))
  · exact ⟨rfl, rfl, rfl, rfl, .some wellNamed_stringType.alike, .none, by decide⟩
  · exact ⟨rfl, rfl, rfl, rfl, .some (wellNamed_typeOf (by decide)).alike, .some (.raw (by decide)),
      by decide⟩
  · exact wellFormed_baseConstructor.sound
  · exact (hmethods _ (.head _)).sound
  · exact (hmethods _ (.tail _ (.head _))).sound

theorem neat_baseClass {name : String} (h : isIdentifier name = true) :
    Layout.Neat (baseClass name).layout := by
  have hmethods := wellFormed_baseMethods name
  refine ClassDeclaration.neat_layout (.of_isIdentifier h) (by simp [baseClass]) ?_
  simp only [baseClass, List.forall_mem_cons]
  refine ⟨?_, ?_, wellFormed_baseConstructor.neat_layout, (hmethods _ (.head _)).neat_layout,
    (hmethods _ (.tail _ (.head _))).neat_layout, by simp⟩
  · exact Property.neat_layout (by decide) (by simpa using wellNamed_stringType) (by simp) (by simp)
  · refine Property.neat_layout (by decide) ?_ ?_ (by simp)
    · simpa using wellNamed_typeOf (by decide)
    · rintro e ⟨⟩
      decide

end ClientGen.Client
