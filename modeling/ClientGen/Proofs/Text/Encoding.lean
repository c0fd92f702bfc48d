import Mathlib.Data.List.Basic
import Mathlib.Tactic.SplitIfs
/-! Texts as the bytes of UTF-8, and as the code units of UTF-16 that the strings of a script are
made of. The order of the bytes is that of the characters: the greater of two characters shows in
the first byte they differ in. -/
namespace ClientGen.Text

def bytes (s : String) : List UInt8 := s.toUTF8.data.toList

theorem bytes_eq_flatMap (s : String) : bytes s = s.toList.flatMap String.utf8EncodeChar := by
  unfold bytes
  rw [String.toUTF8_eq_toByteArray, ← String.utf8Encode_toList, List.utf8Encode,
    List.data_toByteArray]

theorem utf8EncodeChar_append_lt {c d : Char} (h : c < d) (cs ds : List UInt8) :
    String.utf8EncodeChar c ++ cs < String.utf8EncodeChar d ++ ds := by
  have hval : c.val.toNat < d.val.toNat := h
  have hmax : d.val.toNat < 0x110000 := by
    have hvalid : d.val.toNat < 0xd800 ∨ 0xdfff < d.val.toNat ∧ d.val.toNat < 0x110000 := d.valid
    omega
  unfold String.utf8EncodeChar
  dsimp only
  generalize c.val.toNat = m at *
  generalize d.val.toNat = n at *
  -- by the lengths of the two; the first byte of the longer one is greater in any case
  split_ifs <;>
    simp (disch := omega) only [List.cons_append, List.nil_append, List.cons_lt_cons_iff,
      UInt8.lt_iff_toNat_lt, ← UInt8.toNat_inj, UInt8.toNat_ofNat', Nat.mod_eq_of_lt] <;>
    omega

theorem flatMap_utf8EncodeChar_lt {cs ds : List Char} (h : cs < ds) :
    cs.flatMap String.utf8EncodeChar < ds.flatMap String.utf8EncodeChar := by
  induction h with
  | @nil d ds =>
    obtain ⟨b, bs, hd⟩ := List.exists_cons_of_ne_nil (String.utf8EncodeChar_ne_nil (c := d))
    rw [List.flatMap_cons, hd]
    exact List.Lex.nil
  | rel h => exact utf8EncodeChar_append_lt h _ _
  | cons _ ih => exact List.append_left_lt ih

theorem bytes_lt_bytes_iff {s t : String} : bytes s < bytes t ↔ s < t := by
  have hbytes {s t : String} (h : s < t) : bytes s < bytes t := by
    rw [bytes_eq_flatMap, bytes_eq_flatMap]
    exact flatMap_utf8EncodeChar_lt h
  refine ⟨fun h => ?_, hbytes⟩
  by_contra hle
  have hne : t ≠ s := by
    rintro rfl
    exact List.lt_irrefl _ h
  exact List.lt_asymm h (hbytes (Std.lt_of_le_of_ne (String.not_lt.1 hle) hne))

/-- A code point is one unit, or a surrogate pair from `0x10000` on. -/
def pointUnits (n : Nat) : List UInt16 :=
  if n < 0x10000 then [.ofNat n]
  else [.ofNat (0xD800 + (n - 0x10000) / 0x400), .ofNat (0xDC00 + (n - 0x10000) % 0x400)]

def codeUnits (s : List Char) : List UInt16 := s.flatMap fun c => pointUnits c.toNat

theorem toNat_cases (c : Char) : c.toNat < 0xD800 ∨ 0xDFFF < c.toNat ∧ c.toNat < 0x110000 := c.valid

theorem mod_eq_of_ofNat_eq {m n : Nat} (h : UInt16.ofNat m = UInt16.ofNat n) :
    m % 0x10000 = n % 0x10000 := by
  simpa using congrArg UInt16.toNat h

/-- The first unit tells how many belong to its character. -/
theorem pointUnits_append_inj {c d : Char} {s t : List UInt16}
    (h : pointUnits c.toNat ++ s = pointUnits d.toNat ++ t) : c = d ∧ s = t := by
  have hc := toNat_cases c
  have hd := toNat_cases d
  rw [← Char.toNat_inj]
  unfold pointUnits at h
  split_ifs at h
  · obtain ⟨hunit, rfl⟩ := List.cons.inj h
    have := mod_eq_of_ofNat_eq hunit
    exact ⟨by omega, rfl⟩
  · have := mod_eq_of_ofNat_eq (List.cons.inj h).1
    omega
  · have := mod_eq_of_ofNat_eq (List.cons.inj h).1
    omega
  · obtain ⟨hleading, h⟩ := List.cons.inj h
    obtain ⟨htrailing, rfl⟩ := List.cons.inj h
    have := mod_eq_of_ofNat_eq hleading
    have := mod_eq_of_ofNat_eq htrailing
    exact ⟨by omega, rfl⟩

theorem pointUnits_ne_nil (n : Nat) : pointUnits n ≠ [] := by
  unfold pointUnits
  split <;> exact List.cons_ne_nil _ _

theorem codeUnits_inj {s t : List Char} (h : codeUnits s = codeUnits t) : s = t := by
  induction s generalizing t with
  | nil =>
    cases t with
    | nil => rfl
    | cons d ds => exact absurd h.symm (List.append_ne_nil_of_left_ne_nil (pointUnits_ne_nil _) _)
  | cons c cs ih =>
    cases t with
    | nil => exact absurd h (List.append_ne_nil_of_left_ne_nil (pointUnits_ne_nil _) _)
    | cons d ds =>
      obtain ⟨rfl, hrest⟩ := pointUnits_append_inj h
      rw [ih hrest]

end ClientGen.Text
