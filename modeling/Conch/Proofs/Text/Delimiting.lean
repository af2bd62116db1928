-- SUMMARY: Renderings that show where they end, so that whatever stands behind them can be told from them.
import Mathlib.Logic.Function.Basic

/-!
# Renderings that show where they end

A rendering delimits itself if no text begins with two different renderings. Several of
them can then be written behind each other, up to a character that none begins with, and
the whole delimits itself again.
-/

namespace Conch

variable {α β : Type}

/-- What a text begins with is one rendering at most, and then what stands behind it is known too. -/
def SelfDelimiting (render : α → List Char) : Prop :=
  ∀ ⦃a b : α⦄ ⦃x y : List Char⦄, render a ++ x = render b ++ y → a = b ∧ x = y

/-- Texts in a row: the first, and each other one behind what parts them. -/
theorem intercalate_cons_eq_flatMap (parting first : List Char) (rest : List (List Char)) :
    parting.intercalate (first :: rest) = first ++ rest.flatMap (parting ++ ·) := by
  induction rest generalizing first with
  | nil => simp [List.intercalate_singleton]
  | cons next rest ih => simp [List.intercalate_cons_cons, ih]

namespace SelfDelimiting

variable {render : α → List Char}

theorem injective (h : SelfDelimiting render) : Function.Injective render :=
  fun _ _ hab => (h (congrArg (· ++ []) hab)).1

/-- What can be read back from the front of every text delimits itself. -/
theorem of_read {read : List Char → Option (α × List Char)} (h : ∀ a x, read (render a ++ x) = some (a, x)) :
    SelfDelimiting render := by
  intro a b x y hab
  have hread : some (a, x) = some (b, y) := by rw [← h a x, ← h b y, hab]
  exact Prod.mk.inj (Option.some.inj hread)

theorem comp (h : SelfDelimiting render) {f : β → α} (hf : Function.Injective f) :
    SelfDelimiting fun b => render (f b) :=
  fun _ _ _ _ hab => (h hab).imp_left fun h => hf h

theorem append_left (h : SelfDelimiting render) (before : List Char) : SelfDelimiting fun a => before ++ render a := by
  intro a b x y hab
  rw [List.append_assoc, List.append_assoc] at hab
  exact h (List.append_cancel_left hab)

/-- Renderings behind each other, up to a character that none of them begins with. -/
theorem flatMap (h : SelfDelimiting render) {stop : Char} (hstop : ∀ a x y, render a ++ x ≠ stop :: y) :
    SelfDelimiting fun as : List α => as.flatMap render ++ [stop] := by
  intro as bs x y hab
  simp only [List.append_assoc, List.singleton_append] at hab
  induction as generalizing bs with
  | nil =>
    cases bs with
    | nil => exact ⟨rfl, (List.cons.inj hab).2⟩
    | cons b bs =>
      rw [List.flatMap_cons, List.append_assoc] at hab
      exact absurd hab.symm (hstop b _ _)
  | cons a as ih =>
    rw [List.flatMap_cons, List.append_assoc] at hab
    cases bs with
    | nil => exact absurd hab (hstop a _ _)
    | cons b bs =>
      rw [List.flatMap_cons, List.append_assoc] at hab
      obtain ⟨rfl, hrest⟩ := h hab
      obtain ⟨rfl, rfl⟩ := ih hrest
      exact ⟨rfl, rfl⟩

/-- Renderings in a row between brackets, parted by a text that the closing bracket does not begin. -/
theorem bracketed (h : SelfDelimiting render) {opening stop : Char} {parting : List Char}
    (hstop : ∀ a x y, render a ++ x ≠ stop :: y) (hparting : ∀ x y, parting ++ x ≠ stop :: y) :
    SelfDelimiting fun as : List α => opening :: (parting.intercalate (as.map render) ++ [stop]) := by
  have hrow : SelfDelimiting fun as : List α => as.flatMap (fun a => parting ++ render a) ++ [stop] := by
    refine (h.append_left parting).flatMap fun a x y => ?_
    rw [List.append_assoc]
    exact hparting _ _
  have hcons : ∀ a as x, parting.intercalate ((a :: as).map render) ++ [stop] ++ x =
      render a ++ (as.flatMap (fun a => parting ++ render a) ++ [stop] ++ x) := by
    intro a as x
    simp [intercalate_cons_eq_flatMap, List.flatMap_map]
  intro as bs x y hab
  replace hab : parting.intercalate (as.map render) ++ [stop] ++ x = parting.intercalate (bs.map render) ++ [stop] ++ y :=
    (List.cons.inj hab).2
  cases as with
  | nil =>
    cases bs with
    | nil => exact ⟨rfl, (List.cons.inj hab).2⟩
    | cons b bs =>
      rw [hcons] at hab
      exact absurd hab.symm (hstop b _ _)
  | cons a as =>
    rw [hcons] at hab
    cases bs with
    | nil => exact absurd hab (hstop a _ _)
    | cons b bs =>
      rw [hcons] at hab
      obtain ⟨rfl, hrest⟩ := h hab
      obtain ⟨rfl, rfl⟩ := hrow hrest
      exact ⟨rfl, rfl⟩

end SelfDelimiting

end Conch
