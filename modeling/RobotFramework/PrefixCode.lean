import Mathlib.Data.List.Basic

/-!
# Codes for symbols

A text is encoded symbol by symbol. If the first symbol can be read off the code of a text, the whole text
can be read back (`Code.decodeAll_encodeAll`), so different texts have different codes.
-/

namespace PrefixCode

/-- A code for each symbol, and a reader of the first symbol. -/
structure Code (α β : Type) where
  encode : α → List β
  decode : List β → Option (α × List β)
  decode_nil : decode [] = none
  decode_encode (a : α) (rest : List β) : decode (encode a ++ rest) = some (a, rest)

namespace Code

variable {α β : Type} (c : Code α β)

def encodeAll (text : List α) : List β := text.flatMap c.encode

/-- Reads a text of at most so many symbols. -/
def readAll : Nat → List β → Option (List α)
  | _, [] => some []
  | 0, _ :: _ => none
  | bound + 1, b :: code =>
    match c.decode (b :: code) with
    | none => none
    | some (a, rest) => (readAll bound rest).map (a :: ·)

def decodeAll (code : List β) : Option (List α) := c.readAll code.length code

theorem encode_ne_nil (a : α) : c.encode a ≠ [] := by
  intro h
  have hread := c.decode_encode a []
  rw [h, List.nil_append, c.decode_nil] at hread
  cases hread

theorem encodeAll_cons (a : α) (text : List α) : c.encodeAll (a :: text) = c.encode a ++ c.encodeAll text :=
  List.flatMap_cons

theorem length_le_encodeAll (text : List α) : text.length ≤ (c.encodeAll text).length := by
  induction text with
  | nil => exact Nat.le_refl 0
  | cons a text ih =>
    have hone := List.length_pos_iff.mpr (c.encode_ne_nil a)
    rw [encodeAll_cons, List.length_append, List.length_cons]
    omega

theorem readAll_encodeAll {bound : Nat} {text : List α} (h : text.length ≤ bound) :
    c.readAll bound (c.encodeAll text) = some text := by
  induction text generalizing bound with
  | nil => cases bound <;> rfl
  | cons a text ih =>
    obtain ⟨bound, rfl⟩ : ∃ n, bound = n + 1 := ⟨bound - 1, by rw [List.length_cons] at h; omega⟩
    have hrest := ih (Nat.le_of_succ_le_succ h)
    obtain ⟨b, code, hcode⟩ := List.exists_cons_of_ne_nil (c.encode_ne_nil a)
    have hread := c.decode_encode a (c.encodeAll text)
    rw [hcode, List.cons_append] at hread
    rw [encodeAll_cons, hcode, List.cons_append, readAll, hread]
    dsimp only
    rw [hrest]
    rfl

theorem decodeAll_encodeAll (text : List α) : c.decodeAll (c.encodeAll text) = some text :=
  c.readAll_encodeAll (c.length_le_encodeAll text)

theorem encodeAll_injective : Function.Injective c.encodeAll := by
  intro s t h
  have hread := c.decodeAll_encodeAll s
  rw [h, c.decodeAll_encodeAll t] at hread
  exact (Option.some.inj hread).symm

theorem not_mem_encodeAll {b : β} (h : ∀ a, b ∉ c.encode a) (text : List α) : b ∉ c.encodeAll text := by
  intro hmem
  obtain ⟨a, -, ha⟩ := List.mem_flatMap.mp hmem
  exact h a ha

end Code

end PrefixCode
