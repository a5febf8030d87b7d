import LivePreview.Text.Percent
import LivePreview.Proofs.Source.Hazard

/-!
The UTF-16 code units that the body of a string literal stands for. Any character behind a backslash
that begins no escape stands for itself, as a mark of a hazard does, so a backslash in front of it
is not noticed.
-/

namespace LivePreview.Source

open LivePreview.Text.Percent (hexValue?)

def codeUnits (code : Nat) : List Nat :=
  if code < 0x10000 then [code]
  else [0xD800 + (code - 0x10000) / 0x400, 0xDC00 + (code - 0x10000) % 0x400]

def octalValue? (c : Char) : Option Nat :=
  if '0' ≤ c ∧ c ≤ '7' then some (c.toNat - '0'.toNat) else none

def escapedCode : Char → Nat
  | 'b' => 8
  | 't' => 9
  | 'n' => 10
  | 'v' => 11
  | 'f' => 12
  | 'r' => 13
  | c => c.toNat

/-- What a literal has begun and not yet ended: the digits `left` to come, the code of those read. -/
inductive Pending where
  | plain
  | escape
  | carriageReturn
  | unicode
  | hexadecimal (left code : Nat)
  | braced (code : Option Nat)
  | octal (left code : Nat)

namespace Pending

def readPlain (c : Char) : List Nat × Pending :=
  if c = '\\' then ([], .escape) else (codeUnits c.toNat, .plain)

def readEscape (c : Char) : List Nat × Pending :=
  match octalValue? c with
  | some code => ([], .octal (if code < 4 then 2 else 1) code)
  | none =>
      if c = 'x' then ([], .hexadecimal 2 0)
      else if c = 'u' then ([], .unicode)
      else if c = '\r' then ([], .carriageReturn)
      else if c = '\n' ∨ c = '\u2028' ∨ c = '\u2029' then ([], .plain)
      else (codeUnits (escapedCode c), .plain)

def readHexadecimal (left code : Nat) : List Nat × Pending :=
  if left = 1 then (codeUnits code, .plain) else ([], .hexadecimal (left - 1) code)

def readBraced (code : Option Nat) (c : Char) : Option (List Nat × Pending) :=
  if c = '\x7d' then code.map fun code => (codeUnits code, .plain)
  else do
    let code := 16 * code.getD 0 + (← hexValue? c)
    if code ≤ 0x10FFFF then some ([], .braced (some code)) else none

def readOctal (left code : Nat) (c : Char) : List Nat × Pending :=
  match octalValue? c with
  | some digit =>
      if left = 1 then ([8 * code + digit], .plain) else ([], .octal (left - 1) (8 * code + digit))
  | none => (code :: (readPlain c).1, (readPlain c).2)

def read : Pending → Char → Option (List Nat × Pending)
  | .plain, c => some (readPlain c)
  | .escape, c => some (readEscape c)
  | .carriageReturn, c => some (if c = '\n' then ([], .plain) else readPlain c)
  | .unicode, c =>
      if c = '\x7b' then some ([], .braced none)
      else (hexValue? c).map fun digit => ([], .hexadecimal 3 digit)
  | .hexadecimal left code, c =>
      (hexValue? c).map fun digit => readHexadecimal left (16 * code + digit)
  | .braced code, c => readBraced code c
  | .octal left code, c => some (readOctal left code c)

def finish : Pending → Option (List Nat)
  | .plain | .carriageReturn => some []
  | .octal _ code => some [code]
  | _ => none

end Pending

def readLiteralFrom : Pending → List Char → Option (List Nat)
  | pending, [] => pending.finish
  | pending, c :: cs =>
      (pending.read c).bind fun (units, next) => (readLiteralFrom next cs).map (units ++ ·)

def readLiteral (body : List Char) : Option (List Nat) :=
  readLiteralFrom .plain body

theorem readLiteralFrom_cons {pending next : Pending} {c : Char} {units : List Nat}
    (h : pending.read c = some (units, next)) (cs : List Char) :
    readLiteralFrom pending (c :: cs) = (readLiteralFrom next cs).map (units ++ ·) := by
  rw [readLiteralFrom, h]
  rfl

theorem readLiteralFrom_of_refused {pending : Pending} {c : Char} (h : pending.read c = none)
    (cs : List Char) : readLiteralFrom pending (c :: cs) = none := by
  rw [readLiteralFrom, h]
  rfl

theorem read_lt (pending : Pending) :
    pending.read '<' = none ∨ ∃ units, pending.read '<' = some (units, .plain) := by
  cases pending with
  | plain | escape | carriageReturn | octal => exact .inr ⟨_, rfl⟩
  | unicode | hexadecimal | braced => exact .inl rfl

theorem readLiteral_escapedMark {mark : Char} (h : mark = '/' ∨ mark = '!') (cs : List Char) :
    readLiteral ('\\' :: mark :: cs) = readLiteral (mark :: cs) := by
  have hescape : Pending.escape.read mark = Pending.plain.read mark := by
    rcases h with rfl | rfl <;> rfl
  have hback : Pending.plain.read '\\' = some ([], .escape) := rfl
  have hmark : readLiteralFrom .escape (mark :: cs) = readLiteralFrom .plain (mark :: cs) := by
    rw [readLiteralFrom, readLiteralFrom, hescape]
  rw [readLiteral, readLiteralFrom_cons hback, hmark, readLiteral]
  exact Option.map_id'

theorem escapeHazards_of_isHazard {cs : List Char} (h : isHazard cs) :
    ∃ mark rest, (mark = '/' ∨ mark = '!') ∧ escapeHazards cs = mark :: rest := by
  unfold isHazard at h
  split at h
  · exact ⟨'/', _, .inl rfl, rfl⟩
  · exact ⟨'!', _, .inr rfl, rfl⟩
  · cases h

theorem readLiteralFrom_escapeHazards (pending : Pending) (cs : List Char) :
    readLiteralFrom pending (escapeHazards cs) = readLiteralFrom pending cs := by
  induction cs generalizing pending with
  | nil => rfl
  | cons c cs ih =>
    rw [escapeHazards]
    split
    · rename_i hhazard
      obtain ⟨rfl, hhazard⟩ := hhazard
      obtain ⟨mark, rest, hmark, hrest⟩ := escapeHazards_of_isHazard hhazard
      have hskip : readLiteralFrom .plain ('\\' :: escapeHazards cs) = readLiteralFrom .plain cs := by
        rw [hrest]
        refine (readLiteral_escapedMark hmark rest).trans ?_
        rw [readLiteral, ← hrest, ih]
      rcases read_lt pending with hread | ⟨units, hread⟩
      · rw [readLiteralFrom_of_refused hread, readLiteralFrom_of_refused hread]
      · rw [readLiteralFrom_cons hread, readLiteralFrom_cons hread, hskip]
    · simp only [readLiteralFrom, ih]

theorem readLiteral_escapeHazards (cs : List Char) :
    readLiteral (escapeHazards cs) = readLiteral cs :=
  readLiteralFrom_escapeHazards .plain cs

end LivePreview.Source
