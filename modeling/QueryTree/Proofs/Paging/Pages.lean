import Mathlib.Logic.ExistsUnique
import Mathlib.Order.MinMax
import QueryTree.Proofs.Paging.Requested

/-!
# Pages of one size

The pages of one size lie one behind the other, and each row is on one of them.  The offset of a page
is a word; where the exact one is none it stays at the greatest word, which no addressable row
reaches.

* `Page.Holds` — the rows of a page.
* `Page.holds_new_iff` — the page of a row is found by division.
* `Page.existsUnique_holds` — each row is on exactly one page.
* `Page.offset_mono`, `Outline.extent_of_page` — offsets grow with the page, and they are what is
  asked for.
* `Page.pages_partition` — all of it.
-/

namespace QueryTree

namespace Page

/-- A row is on a page.  Rows are numbered from zero, and the window of a page ends at a number that
need not be a word. -/
def Holds (p : Page) (r : Nat) : Prop := p.offset.toNat ≤ r ∧ r < p.offset.toNat + p.rows.toNat

variable {n m rows size : UInt64} {r : Nat}

theorem toNat_offset_new (n rows : UInt64) :
    (new n rows).offset.toNat = min ((max n.toNat 1 - 1) * rows.toNat) maxWord :=
  toNat_offset (new n rows)

/-- The page of an addressable row is found by division: an offset that is cut off lies behind all
such rows. -/
theorem holds_new_iff (hr : r < maxWord) (hrows : 0 < rows.toNat) :
    (new n rows).Holds r ↔ r / rows.toNat = max n.toNat 1 - 1 := by
  have hoffset := toNat_offset_new n rows
  have hsize : (new n rows).rows = rows := rfl
  rw [Holds, hoffset, hsize, Nat.div_eq_iff hrows]
  generalize (max n.toNat 1 - 1) * rows.toNat = before
  have hcut : min before maxWord ≤ r ↔ before ≤ r := by omega
  rw [hcut]
  omega

theorem existsUnique_holds (hr : r < maxWord) (hrows : 0 < rows.toNat) :
    ∃! n : UInt64, 1 ≤ n ∧ (new n rows).Holds r := by
  have hdiv : r / rows.toNat ≤ r := Nat.div_le_self r rows.toNat
  have hiff (n : UInt64) := holds_new_iff (n := n) hr hrows
  generalize r / rows.toNat = before at hdiv hiff
  -- the number does not wrap, as the row is addressable
  have hnumber : (UInt64.ofNat (before + 1)).toNat = before + 1 := by
    apply UInt64.toNat_ofNat_of_lt'
    unfold maxWord at hr
    omega
  refine ⟨.ofNat (before + 1), ⟨?_, ?_⟩, ?_⟩
  · rw [UInt64.le_iff_toNat_le, hnumber]
    exact Nat.le_add_left 1 before
  · rw [hiff, hnumber]
    omega
  · rintro n ⟨hn, hh⟩
    have hpage := (hiff n).1 hh
    have hone : 1 ≤ n.toNat := UInt64.le_iff_toNat_le.1 hn
    apply UInt64.toNat_inj.1
    omega

theorem offset_mono (hn : n ≤ m) (hrows : rows ≤ size) :
    (new n rows).offset ≤ (new m size).offset := by
  rw [UInt64.le_iff_toNat_le] at hn hrows ⊢
  rw [toNat_offset_new, toNat_offset_new]
  have hnumber : max n.toNat 1 - 1 ≤ max m.toNat 1 - 1 := by omega
  exact min_le_min_right _ (Nat.mul_le_mul hnumber hrows)

/-- Pages are numbered from one, and what is passed over are the pages in front: nothing is taken
from zero, and a product that is no word is cut off and does not wrap. -/
theorem offset_exact (n rows : UInt64) :
    1 ≤ (new n rows).number.toNat ∧
      ((new n rows).offset.toNat : ℤ) =
        min (((new n rows).number.toNat - 1 : ℤ) * rows.toNat) maxWord := by
  have hnumber : (new n rows).number.toNat = max n.toNat 1 := toNat_number (new n rows)
  have hone : 1 ≤ max n.toNat 1 := le_max_right _ _
  rw [hnumber, toNat_offset_new]
  have hbefore : ((max n.toNat 1 : ℕ) : ℤ) - 1 = ((max n.toNat 1 - 1 : ℕ) : ℤ) := by omega
  refine ⟨hone, ?_⟩
  rw [hbefore, ← Int.natCast_mul]
  omega

end Page

theorem Outline.extent_of_page {o : Outline} {n rows : UInt64} (hp : o.page = some (.new n rows))
    (hrows : 0 < rows.toNat) :
    o.window.extent = ⟨some rows.toNat, (Page.new n rows).offset.toNat⟩ := by
  -- a page without a last value needs no order
  have horder : QueryDraft.lacksOrder o = false := by
    rw [QueryDraft.lacksOrder, Outline.activePage, hp]
    by_cases hz : rows = 0 <;> simp [Option.filter, Page.isActive, Page.new, hz]
  have hpage : o.pageOrNew = .new n rows := by
    rw [Outline.pageOrNew, hp]
    rfl
  rw [Outline.extent_window horder, hpage, Page.toNat_offset_new]
  simp [Page.new, Nat.pos_iff_ne_zero.1 hrows]

namespace Page

/-- **Pages of one size cut the addressable rows into windows.**  Each row below the greatest word is
on exactly one page; the pages 0 and 1 are the same window.  Offsets grow with the number and with
the size of the page, and neither fall below zero nor wrap.  What is asked for is the window of the
page. -/
theorem pages_partition {rows : UInt64} {r : Nat} (hrows : 1 ≤ rows) (hr : r < maxWord) :
    (∃! n : UInt64, 1 ≤ n ∧ (new n rows).Holds r) ∧
    ((new 0 rows).offset = (new 1 rows).offset ∧ ((new 0 rows).Holds r ↔ (new 1 rows).Holds r)) ∧
    (∀ n m small large : UInt64, n ≤ m → small ≤ large →
      (new n small).offset ≤ (new m large).offset) ∧
    (∀ n size : UInt64, 1 ≤ (new n size).number.toNat ∧
      ((new n size).offset.toNat : ℤ) =
        min (((new n size).number.toNat - 1 : ℤ) * size.toNat) maxWord) ∧
    ∀ (o : Outline) (n : UInt64), o.page = some (new n rows) →
      o.window.extent = ⟨some rows.toNat, (new n rows).offset.toNat⟩ := by
  have hpos : 0 < rows.toNat := UInt64.le_iff_toNat_le.1 hrows
  have hfirst : (new 0 rows).offset = (new 1 rows).offset := by
    apply UInt64.toNat_inj.1
    rw [toNat_offset_new, toNat_offset_new]
    rfl
  refine ⟨existsUnique_holds hr hpos, ⟨hfirst, ?_⟩, ?_, offset_exact, ?_⟩
  · rw [Holds, Holds, hfirst]
    rfl
  · intro n m small large hn hs
    exact offset_mono hn hs
  · intro o n hp
    exact Outline.extent_of_page hp hpos

/-- The last addressable row is on the page with the greatest number, if pages have one row. -/
theorem pages_partition_of_last :
    (∃! n : UInt64, 1 ≤ n ∧ (new n 1).Holds 18446744073709551614) ∧
      (new 18446744073709551615 1).Holds 18446744073709551614 := by
  have hr : 18446744073709551614 < maxWord := by decide
  exact ⟨(pages_partition (by decide) hr).1, by decide, by decide⟩

end Page

end QueryTree
