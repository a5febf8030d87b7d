import Mathlib.Data.List.Basic
import LivePreview.Text.Fingerprint

/-!
The multiplier has an inverse among the 64-bit words, so a step never takes two hashes to one, nor
two bytes.
-/

namespace LivePreview.Text.Fingerprint

/-- What undoes the multiplier when products are taken modulo 2^64. -/
def inverse : UInt64 := 0xce965057aff6957b

theorem multiplier_mul_inverse : multiplier * inverse = 1 := by decide

section Steps

variable {hash hash' : UInt64} {byte byte' : UInt8}

theorem mul_multiplier_inj : hash * multiplier = hash' * multiplier ↔ hash = hash' := by
  constructor
  · intro h
    have hundone := congrArg (· * inverse) h
    simpa only [UInt64.mul_assoc, multiplier_mul_inverse, UInt64.mul_one] using hundone
  · rintro rfl
    rfl

theorem step_eq_step_iff_hash : step hash byte = step hash' byte ↔ hash = hash' := by
  rw [step, step, mul_multiplier_inj, UInt64.xor_left_inj]

theorem step_eq_step_iff_byte : step hash byte = step hash byte' ↔ byte = byte' := by
  rw [step, step, mul_multiplier_inj, UInt64.xor_right_inj, UInt8.toUInt64_inj]

theorem foldl_step_inj {bytes : List UInt8} :
    bytes.foldl step hash = bytes.foldl step hash' ↔ hash = hash' := by
  induction bytes generalizing hash hash' with
  | nil => rfl
  | cons byte bytes ih => rw [List.foldl_cons, List.foldl_cons, ih, step_eq_step_iff_hash]

theorem ofBytes_replace_inj {before after : List UInt8} :
    ofBytes (before ++ byte :: after) = ofBytes (before ++ byte' :: after) ↔ byte = byte' := by
  rw [ofBytes, ofBytes, List.foldl_append, List.foldl_append, List.foldl_cons, List.foldl_cons,
    foldl_step_inj, step_eq_step_iff_byte]

end Steps

def OneByteApart (xs ys : List UInt8) : Prop :=
  xs.length = ys.length ∧ ∃! place : Nat, xs[place]? ≠ ys[place]?

namespace OneByteApart

variable {x y : UInt8} {xs ys : List UInt8}

theorem tail (h : OneByteApart (x :: xs) (x :: ys)) : OneByteApart xs ys := by
  obtain ⟨hlength, place, hplace, hunique⟩ := h
  cases place with
  | zero => simp at hplace
  | succ place =>
    refine ⟨Nat.succ.inj hlength, place, by simpa using hplace, fun other hother => ?_⟩
    exact Nat.succ.inj (hunique (other + 1) (by simpa using hother))

theorem tail_eq (h : OneByteApart (x :: xs) (y :: ys)) (hne : x ≠ y) : xs = ys := by
  obtain ⟨-, place, -, hunique⟩ := h
  have hzero : 0 = place := hunique 0 (by simpa using hne)
  refine List.ext_getElem? fun other => ?_
  by_contra hother
  have hplace : other + 1 = place := hunique (other + 1) (by simpa using hother)
  omega

theorem exists_replaced (h : OneByteApart xs ys) :
    ∃ before after byte byte', byte ≠ byte' ∧
      xs = before ++ byte :: after ∧ ys = before ++ byte' :: after := by
  induction xs generalizing ys with
  | nil =>
    obtain ⟨hlength, place, hplace, -⟩ := h
    obtain rfl := List.length_eq_zero_iff.1 hlength.symm
    exact absurd rfl hplace
  | cons x xs ih =>
    cases ys with
    | nil => cases h.1
    | cons y ys =>
      by_cases hxy : x = y
      · subst hxy
        obtain ⟨before, after, byte, byte', hne, rfl, rfl⟩ := ih h.tail
        exact ⟨x :: before, after, byte, byte', hne, rfl, rfl⟩
      · obtain rfl := h.tail_eq hxy
        exact ⟨[], xs, x, y, hxy, rfl, rfl⟩

end OneByteApart

/-- Byte strings that are one byte apart have two fingerprints, and so have texts with such bytes. A step
is injective in the hash that it starts from and in the byte that it takes in. -/
theorem one_byte_edit_shows :
    (∀ xs ys, OneByteApart xs ys → ofBytes xs ≠ ofBytes ys) ∧
    (∀ s t : String, OneByteApart s.toUTF8.data.toList t.toUTF8.data.toList →
      fingerprint s ≠ fingerprint t) ∧
    (∀ byte, Function.Injective fun hash => step hash byte) ∧
    ∀ hash, Function.Injective (step hash) := by
  have hbytes (xs ys : List UInt8) (h : OneByteApart xs ys) : ofBytes xs ≠ ofBytes ys := by
    obtain ⟨before, after, byte, byte', hne, rfl, rfl⟩ := h.exists_replaced
    exact mt ofBytes_replace_inj.1 hne
  refine ⟨hbytes, fun s t => hbytes _ _, fun byte hash hash' h => ?_, fun hash byte byte' h => ?_⟩
  · exact step_eq_step_iff_hash.1 h
  · exact step_eq_step_iff_byte.1 h

theorem edit_shows_in_flippedBit :
    OneByteApart [0x61, 0x00, 0xff, 0x0a] [0x61, 0x80, 0xff, 0x0a] ∧
      ofBytes [0x61, 0x00, 0xff, 0x0a] ≠ ofBytes [0x61, 0x80, 0xff, 0x0a] := by
  have hapart : OneByteApart [0x61, 0x00, 0xff, 0x0a] [0x61, 0x80, 0xff, 0x0a] := by
    refine ⟨rfl, 1, by decide, fun place hplace => ?_⟩
    match place with
    | 0 | 2 | 3 => exact absurd rfl hplace
    | 1 => rfl
    | _ + 4 => exact absurd rfl hplace
  exact ⟨hapart, one_byte_edit_shows.1 _ _ hapart⟩

end LivePreview.Text.Fingerprint
