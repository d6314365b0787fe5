import MessagePattern.Decimal.Notation
import MessagePattern.Proofs.Decimal.Numeral

/-!
# The characters of floats

A float is written with digits, a few marks and the two words of its layout, and with nothing
else (`Layout.forall_mem_write`): its significant digits are digits, and both ways to lay them
out only add zeros and marks.
-/

namespace MessagePattern.Decimal

/-! ## Digits -/

theorem isDigit_of_mem_shortest {m : Nat} {q : Int} {c : Char} (h : c ∈ (shortest m q).digits) :
    c.isDigit = true := by
  unfold shortest at h
  split at h
  · rw [List.mem_singleton.mp h]
    rfl
  · simp only at h
    split at h
    · rename_i n k _
      have hkept : c ∈ (digits n).reverse :=
        (List.dropWhile_sublist _).subset (List.mem_reverse.mp h)
      exact isDigit_of_mem_digits (List.mem_reverse.mp hkept)
    · exact isDigit_of_mem_digits h

/-! ## Layouts -/

section

variable {P : Char → Prop} (hdigit : ∀ c, c.isDigit = true → P c)
  (hmark : ∀ c ∈ ['-', '+', '.', 'e'], P c)

include hdigit

theorem forall_mem_zeros (n : Nat) : ∀ c ∈ List.replicate n '0', P c := by
  intro c hc
  rw [(List.mem_replicate.mp hc).2]
  exact hdigit '0' rfl

include hmark

namespace Significand

variable {s : Significand} (hs : ∀ c ∈ s.digits, c.isDigit = true)

include hs

theorem forall_mem_positional : ∀ c ∈ s.positional, P c := by
  have hpoint : P '.' := hmark '.' (by decide)
  have hdigits : ∀ c ∈ s.digits, P c := fun c hc => hdigit c (hs c hc)
  unfold positional
  split
  · exact List.forall_mem_cons.mpr ⟨hdigit '0' rfl, List.forall_mem_cons.mpr ⟨hpoint,
      List.forall_mem_append.mpr ⟨forall_mem_zeros hdigit _, hdigits⟩⟩⟩
  · have hpadded := List.forall_mem_append.mpr ⟨hdigits,
      forall_mem_zeros hdigit (s.exponent.natAbs + 1 + 1 - s.digits.length)⟩
    exact List.forall_mem_append.mpr ⟨fun c hc => hpadded c (List.mem_of_mem_take hc),
      List.forall_mem_cons.mpr ⟨hpoint, fun c hc => hpadded c (List.mem_of_mem_drop hc)⟩⟩

theorem forall_mem_scientific (width : Nat) : ∀ c ∈ s.scientific width, P c := by
  have hsign : P (if s.exponent < 0 then '-' else '+') := by
    split
    · exact hmark '-' (by decide)
    · exact hmark '+' (by decide)
  refine List.forall_mem_append.mpr ⟨?mantissa, List.forall_mem_cons.mpr ⟨hmark 'e' (by decide),
    List.forall_mem_cons.mpr ⟨hsign, List.forall_mem_append.mpr ⟨forall_mem_zeros hdigit _,
      fun c hc => hdigit c (isDigit_of_mem_digits hc)⟩⟩⟩⟩
  split
  · exact List.forall_mem_nil _
  · rename_i hone
    exact fun c hc => hdigit c (hs c (hone ▸ hc))
  · rename_i d r _ hmore
    have hdigits : ∀ c ∈ d :: r, P c := fun c hc => hdigit c (hs c (hmore ▸ hc))
    obtain ⟨hd, hr⟩ := List.forall_mem_cons.mp hdigits
    exact List.forall_mem_cons.mpr ⟨hd, List.forall_mem_cons.mpr ⟨hmark '.' (by decide), hr⟩⟩

end Significand

/-- A float is written with digits, marks and the words of its layout. -/
theorem Layout.forall_mem_write {layout : Layout} (hinfinite : ∀ c ∈ layout.infinite, P c)
    (hundefined : ∀ c ∈ layout.undefined, P c) (x : Float) : ∀ c ∈ layout.write x, P c := by
  have hsign : ∀ c ∈ (if (decode x).negative then ['-'] else []), P c := by
    split
    · exact List.forall_mem_singleton.mpr (hmark '-' (by decide))
    · exact List.forall_mem_nil _
  unfold write
  simp only
  split
  · exact hundefined
  · exact List.forall_mem_append.mpr ⟨hsign, hinfinite⟩
  · rename_i m q _
    have hs : ∀ c ∈ (shortest m q).digits, c.isDigit = true := fun _ => isDigit_of_mem_shortest
    split
    · exact List.forall_mem_append.mpr ⟨hsign, Significand.forall_mem_positional hdigit hmark hs⟩
    · exact List.forall_mem_append.mpr
        ⟨hsign, Significand.forall_mem_scientific hdigit hmark hs layout.exponentWidth⟩

end

end MessagePattern.Decimal
