import PaymentService.Table.Paging

/-!
# `PaginationUtil`

`getPage` cuts a page out of a list, and the flags of the metadata tell whether there is a page before
and after. The page is cut and the flags are computed apart, from the same page size. They agree, so
whoever follows `hasNextPage` from the first page on has read the whole list when it ends.
-/

namespace PaymentService

open Paging

def DEFAULT_PAGE_SIZE : ℤ := 20

structure PaginationResponse where
  currentPage : ℤ
  pageSize : ℤ
  hasNextPage : Bool
  hasPreviousPage : Bool

/-- `xs.slice(start, stop)`, neither of which is negative. -/
def slice {α : Type} (xs : List α) (start stop : ℤ) : List α :=
  (xs.drop start.toNat).take (stop - start).toNat

namespace PaginationUtil

variable {α : Type}

/-- The list may be `null` or `undefined`. -/
def getPage (sourceList : Option (List α)) (page : ℤ) : List α :=
  if page < 0 then []
  else
    let fromIndex := page * DEFAULT_PAGE_SIZE
    match sourceList with
    | none => []
    | some sourceList =>
      if sourceList.length ≤ fromIndex then []
      else slice sourceList fromIndex (min (fromIndex + DEFAULT_PAGE_SIZE) sourceList.length)

def getPaginationMetadataTokenX (dataCount requestedPage : ℤ)
    (pageSize : ℤ := DEFAULT_PAGE_SIZE) : PaginationResponse where
  currentPage := requestedPage
  pageSize := pageSize
  hasNextPage := dataCount > (requestedPage + 1) * pageSize
  hasPreviousPage := requestedPage > 0 && dataCount > (requestedPage - 1) * pageSize

def getPaginationMetadata (sourceList : List α) (requestedPage : ℤ)
    (pageSize : ℤ := DEFAULT_PAGE_SIZE) : PaginationResponse where
  currentPage := requestedPage
  pageSize := pageSize
  hasNextPage := sourceList.length > (requestedPage + 1) * pageSize
  hasPreviousPage := requestedPage > 0 && sourceList.length > (requestedPage - 1) * pageSize

def hasNextPage (totalRows pageNumber pageSize : ℤ) : Bool :=
  totalRows > (pageNumber + 1) * pageSize

def hasPreviousPage (totalRows pageNumber pageSize : ℤ) : Bool :=
  pageNumber > 0 && totalRows > (pageNumber - 1) * pageSize

/-! ## One page -/

theorem getPage_eq_page (xs : List α) (k : ℕ) : getPage (some xs) k = page 20 xs k := by
  have hnonneg : ¬(k : ℤ) < 0 := by omega
  simp only [getPage, if_neg hnonneg, page]
  by_cases hempty : (xs.length : ℤ) ≤ k * DEFAULT_PAGE_SIZE
  · rw [if_pos hempty]
    rw [DEFAULT_PAGE_SIZE] at hempty
    rw [List.drop_eq_nil_of_le (by omega), List.take_nil]
  · rw [if_neg hempty]
    have hstart : ((k : ℤ) * 20).toNat = k * 20 := by omega
    rw [DEFAULT_PAGE_SIZE, slice, hstart]
    -- What the list has of the page, if it ends before the page does.
    rcases le_total ((k : ℤ) * 20 + 20) xs.length with hle | hge
    · rw [min_eq_left hle]
      congr 1
      omega
    · rw [min_eq_right hge, List.take_of_length_le, List.take_of_length_le]
      · rw [List.length_drop]
        omega
      · rw [List.length_drop]
        omega

/-- A page is there when the list goes on past the pages before it. -/
theorem getPage_ne_nil_iff (xs : List α) {page : ℤ} (h : 0 ≤ page) :
    getPage (some xs) page ≠ [] ↔ page * DEFAULT_PAGE_SIZE < xs.length := by
  obtain ⟨k, rfl⟩ := Int.eq_ofNat_of_zero_le h
  rw [getPage_eq_page, Ne, page_eq_nil_iff (by decide), DEFAULT_PAGE_SIZE]
  omega

theorem hasNextPage_iff (xs : List α) (page : ℤ) :
    (getPaginationMetadata xs page).hasNextPage = true ↔
      (page + 1) * DEFAULT_PAGE_SIZE < xs.length := decide_eq_true_iff

/-! ## The walk -/

/-- The pages from a page on, as long as there is a next one; without fuel there is no result. -/
def walk (sourceList : List α) : ℕ → ℤ → Option (List (List α))
  | 0, _ => none
  | fuel + 1, page =>
    if (getPaginationMetadata sourceList page).hasNextPage then
      (walk sourceList fuel (page + 1)).map (getPage (some sourceList) page :: ·)
    else some [getPage (some sourceList) page]

theorem walk_from (xs : List α) (k : ℕ) :
    ∃ pages, (∀ fuel, xs.length - k * 20 < fuel → walk xs fuel k = some pages) ∧
      pages.flatten = xs.drop (k * 20) ∧
      (k * 20 < xs.length → ∀ page ∈ pages, 1 ≤ page.length ∧ page.length ≤ 20) := by
  -- On what is left of the list: every page but the last takes something off it.
  induction hleft : xs.length - k * 20 using Nat.strong_induction_on generalizing k with
  | _ left ih =>
    have hsize : k * 20 < xs.length →
        1 ≤ (page 20 xs k).length ∧ (page 20 xs k).length ≤ 20 := by
      intro hlt
      rw [page, List.length_take, List.length_drop]
      omega
    by_cases hnext : (k + 1) * 20 < xs.length
    · obtain ⟨pages, hwalk, hflatten, hpages⟩ := ih _ (by omega) (k + 1) rfl
      refine ⟨page 20 xs k :: pages, fun fuel hfuel ↦ ?_, ?_, fun hlt ↦ ?_⟩
      · obtain ⟨fuel, rfl⟩ : ∃ n, fuel = n + 1 := ⟨fuel - 1, by omega⟩
        have hflag : (getPaginationMetadata xs k).hasNextPage = true := by
          rw [hasNextPage_iff, DEFAULT_PAGE_SIZE]
          omega
        have hrest : walk xs fuel (k + 1) = some pages := hwalk fuel (by omega)
        rw [walk, hflag, if_pos rfl, hrest, Option.map_some, getPage_eq_page]
      · rw [List.flatten_cons, hflatten, page, Nat.succ_mul, ← List.drop_drop,
          List.take_append_drop]
      · exact List.forall_mem_cons.mpr ⟨hsize hlt, hpages hnext⟩
    · refine ⟨[page 20 xs k], fun fuel hfuel ↦ ?_, ?_, fun hlt ↦ ?_⟩
      · obtain ⟨fuel, rfl⟩ : ∃ n, fuel = n + 1 := ⟨fuel - 1, by omega⟩
        have hflag : ¬(getPaginationMetadata xs k).hasNextPage = true := by
          rw [hasNextPage_iff, DEFAULT_PAGE_SIZE]
          omega
        rw [walk, if_neg hflag, getPage_eq_page]
      · rw [List.flatten_singleton, page, List.take_of_length_le]
        rw [List.length_drop]
        omega
      · exact List.forall_mem_singleton.mpr (hsize hlt)

/-- Every list is read once and in order by following `hasNextPage` from the first page on; the flags
of every page say which neighbours it has, and all functions that compute them agree. -/
theorem walk_complete (xs : List α) :
    (∃ pages, (∀ fuel, xs.length < fuel → walk xs fuel 0 = some pages) ∧
        (xs ≠ [] → ∀ page ∈ pages, 1 ≤ page.length ∧ page.length ≤ 20) ∧
        pages.flatten = xs) ∧
      ∀ page : ℤ, 0 ≤ page →
        ((getPaginationMetadata xs page).hasNextPage = true ↔
            getPage (some xs) (page + 1) ≠ []) ∧
          ((getPaginationMetadata xs page).hasPreviousPage = true ↔
            page > 0 ∧ getPage (some xs) (page - 1) ≠ []) ∧
          ∀ pageSize : ℤ,
            getPaginationMetadataTokenX xs.length page pageSize =
                getPaginationMetadata xs page pageSize ∧
              hasNextPage xs.length page pageSize =
                (getPaginationMetadata xs page pageSize).hasNextPage ∧
              hasPreviousPage xs.length page pageSize =
                (getPaginationMetadata xs page pageSize).hasPreviousPage := by
  constructor
  · obtain ⟨pages, hwalk, hflatten, hpages⟩ := walk_from xs 0
    rw [Nat.zero_mul, List.drop_zero] at hflatten
    refine ⟨pages, fun fuel hfuel ↦ hwalk fuel (by omega), fun hne ↦ hpages ?_, hflatten⟩
    rw [Nat.zero_mul]
    exact List.length_pos_iff.mpr hne
  · intro page hpage
    refine ⟨?_, ?_, fun pageSize ↦ ⟨rfl, rfl, rfl⟩⟩
    · rw [getPage_ne_nil_iff xs (by omega), hasNextPage_iff]
    · rw [getPaginationMetadata, Bool.and_eq_true, decide_eq_true_eq, decide_eq_true_eq]
      refine and_congr_right fun hpos ↦ ?_
      rw [getPage_ne_nil_iff xs (by omega), gt_iff_lt]

example : walk (List.range 41) 42 0 =
    some [List.range 20, List.range' 20 20, [40]] := by decide

end PaginationUtil

end PaymentService
