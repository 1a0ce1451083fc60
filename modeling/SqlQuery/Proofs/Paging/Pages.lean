import SqlQuery.Proofs.Compiled
import SqlQuery.Query.Build

/-!
# Numbered pages

A page is an offset and a limit.  The offset is a product, and both factors may be any words of 64 bits, so its
arithmetic is told twice: with integers, and with words whose difference may wrap around and whose product stops at
the least and at the greatest word.

* `Query.wordOffset`, `Query.toInt_wordOffset` — the offset in words is the offset in integers;
* `Query.pageOffset_eq_min`, `Query.pageOffset_succ` — what it is, and that the next page begins where this one ends;
* `Query.selectDefect?_page`, `Query.compile_page_of_neg` — the pages of a select that compiles, and those that no
  select has;
* `Query.page_reads` — **a numbered page**;
* `Query.window`, `Query.pages_cover` — the rows of the first pages are the first rows.
-/

namespace SqlQuery.Query

open SqlQuery.Number

/-! ### Arithmetic of words -/

/-- The rows before a page, computed in words of 64 bits: the difference wraps around where it is no such word, and
the product stops at the least and at the greatest one. -/
def wordOffset (page perPage : Int64) : Int64 :=
  Int64.ofIntClamp ((max page 1 - 1).toInt * perPage.toInt)

/-- The difference never wraps around, since a page counts as the first one at least. -/
theorem toInt_max_sub_one (page : Int64) : (max page 1 - 1).toInt = max page.toInt 1 - 1 := by
  have hone : (1 : Int64).toInt = 1 := rfl
  have hupper : page.toInt < 9223372036854775808 := page.toInt_lt
  have hmax : (max page 1).toInt = max page.toInt 1 := by
    have hdef : max page 1 = if page ≤ 1 then 1 else page := rfl
    rw [hdef]
    by_cases h : page ≤ 1
    · have hle := Int64.le_iff_toInt_le.1 h
      rw [if_pos h]
      omega
    · have hlt := mt Int64.le_iff_toInt_le.2 h
      rw [if_neg h]
      omega
  rw [Int64.toInt_sub, hmax, hone]
  apply Int.bmod_eq_of_le <;> omega

theorem toInt_ofIntClamp (n : Int) : (Int64.ofIntClamp n).toInt = clampInt64 n := by
  have hmin : Int64.minValue.toInt = int64Min := rfl
  have hmax : Int64.maxValue.toInt = int64Max := rfl
  have horder : int64Min ≤ int64Max := by decide
  unfold Int64.ofIntClamp clampInt64
  split
  · split
    · rw [Int64.toInt_ofIntLE]
      omega
    · omega
  · omega

/-- The offset of a page is the same in words: nothing on the way to it wraps around. -/
theorem toInt_wordOffset (page perPage : Int64) :
    (wordOffset page perPage).toInt = pageOffset page.toInt perPage.toInt := by
  rw [wordOffset, toInt_ofIntClamp, toInt_max_sub_one, pageOffset]

/-! ### Offsets -/

section Offsets

variable {page perPage : Int}

/-- The rows before a page are counted exactly, up to the greatest word. -/
theorem pageOffset_eq_min (h : 0 ≤ perPage) :
    pageOffset page perPage = min ((max page 1 - 1) * perPage) int64Max := by
  have hproduct : 0 ≤ (max page 1 - 1) * perPage := Int.mul_nonneg (by omega) h
  have hmin : int64Min ≤ 0 := by decide
  have hmax : 0 ≤ int64Max := by decide
  unfold pageOffset clampInt64
  omega

theorem pageOffset_nonneg (h : 0 ≤ perPage) : 0 ≤ pageOffset page perPage := by
  have hproduct : 0 ≤ (max page 1 - 1) * perPage := Int.mul_nonneg (by omega) h
  have hmax : 0 ≤ int64Max := by decide
  rw [pageOffset_eq_min h]
  omega

/-- While a page ends within the words, it begins exactly after the pages before it. -/
theorem pageOffset_eq_mul (h : 0 ≤ perPage) (hpage : 1 ≤ page) (hend : page * perPage ≤ int64Max) :
    pageOffset page perPage = (page - 1) * perPage := by
  have hmax : max page 1 = page := by omega
  have hbefore : (page - 1) * perPage = page * perPage - perPage := by rw [Int.sub_mul, Int.one_mul]
  rw [pageOffset_eq_min h, hmax]
  omega

/-- **The next page** begins where this one ends. -/
theorem pageOffset_succ (h : 0 ≤ perPage) (hpage : 1 ≤ page) (hend : page * perPage ≤ int64Max) :
    pageOffset (page + 1) perPage = pageOffset page perPage + perPage := by
  have hmax : max (page + 1) 1 - 1 = page := by omega
  have hbefore : (page - 1) * perPage = page * perPage - perPage := by rw [Int.sub_mul, Int.one_mul]
  rw [pageOffset_eq_mul h hpage hend, pageOffset_eq_min h, hmax]
  omega

end Offsets

/-! ### Pages of a query -/

section Pages

variable {q : Query} {p : Paging} {page perPage : Int}

theorem fragment_of_select (h : q.action = .select) : q.fragment p = q.select p := by
  rw [fragment, h]

/-- A page whose size is not negative has no defect where the query has none; only legacy servers refuse to page a
union. -/
theorem selectDefect?_page (h : 0 ≤ perPage) (hq : q.selectDefect? .modern = none) :
    (q.page page perPage).selectDefect? .modern = none := by
  obtain ⟨haction, htable, -, -, haggregate, hbranches, hassignments, hreturning⟩ := selectDefect?_eq_none.1 hq
  refine selectDefect?_eq_none.2 ⟨haction, htable, ?_, ?_, haggregate, ?_, hassignments, hreturning⟩
  · rintro n ⟨⟩
    exact h
  · rintro n ⟨⟩
    exact pageOffset_nonneg h
  · exact fun hb => ⟨(hbranches hb).1, nofun⟩

/-- A page compiles with the query: the parts that are compiled are the same. -/
theorem compile_page_ok (h : 0 ≤ perPage) (hselect : q.action = .select) (hq : ∃ s, q.compile .modern = .ok s) :
    ∃ s, (q.page page perPage).compile .modern = .ok s := by
  obtain ⟨s, hs⟩ := hq
  obtain ⟨f, hf, -⟩ := compile_eq_ok.1 hs
  rw [fragment_of_select hselect] at hf
  obtain ⟨hdefect, table, ht, joins, hj, filter, hc, having, hh, branches, hb, -⟩ := select_eq_ok.1 hf
  have hpage : (q.page page perPage).select .modern = .ok _ :=
    select_eq_ok.2 ⟨selectDefect?_page h hdefect, table, ht, joins, hj, filter, hc, having, hh, branches, hb, rfl⟩
  have haction : (q.page page perPage).action = .select := hselect
  rw [← fragment_of_select haction] at hpage
  exact ⟨_, compile_eq_ok.2 ⟨_, hpage, rfl⟩⟩

/-- A page of negative size is refused for its limit, before any part is compiled. -/
theorem compile_page_of_neg (h : perPage < 0) (hselect : q.action = .select) (htable : q.table.isSome = true) :
    (q.page page perPage).compile p = .error (.malformedQuery (.negativeLimit perPage)) := by
  have haction : (q.page page perPage).action = .select := hselect
  have htable' : (q.page page perPage).table.isNone = false := by
    rw [← Option.not_isSome, Bool.not_eq_false']
    exact htable
  have hlimit : (q.page page perPage).limit.filter (· < 0) = some perPage := by
    have hsize : (q.page page perPage).limit = some perPage := rfl
    rw [hsize, Option.filter_some, if_pos (decide_eq_true h)]
  have hdefect : (q.page page perPage).selectDefect? p = some (.negativeLimit perPage) := by
    unfold selectDefect?
    rw [if_neg (not_not_intro haction), htable', hlimit]
    rfl
  rw [compile_eq_error, fragment_of_select haction, select_eq, hdefect]
  rfl

/-- **A numbered page** of a select that compiles for modern servers, for any two words of 64 bits.  No word on the way
to its offset wraps around.  If its size is not negative, the page compiles too, its limit is its size, and its offset
is the number of rows before it, exactly up to the greatest word; the next page begins where this one ends, if that is
a word.  A page of negative size compiles for no server. -/
theorem page_reads (q : Query) (page perPage : Int64) (hselect : q.action = .select)
    (hq : ∃ s, q.compile .modern = .ok s) :
    ((max page 1 - 1).toInt = max page.toInt 1 - 1 ∧
      (q.page page.toInt perPage.toInt).offset = some (wordOffset page perPage).toInt) ∧
    (0 ≤ perPage.toInt →
      (q.page page.toInt perPage.toInt).offset =
          some (min ((max page.toInt 1 - 1) * perPage.toInt) int64Max) ∧
        (q.page page.toInt perPage.toInt).limit = some perPage.toInt ∧
        (∃ s, (q.page page.toInt perPage.toInt).compile .modern = .ok s) ∧
        (1 ≤ page.toInt → page.toInt < int64Max → page.toInt * perPage.toInt ≤ int64Max →
          ∃ offset limit, (q.page page.toInt perPage.toInt).offset = some offset ∧
            (q.page page.toInt perPage.toInt).limit = some limit ∧
            (q.page (page + 1).toInt perPage.toInt).offset = some (offset + limit))) ∧
    (perPage.toInt < 0 → ∀ p : Paging, (q.page page.toInt perPage.toInt).compile p =
      .error (.malformedQuery (.negativeLimit perPage.toInt))) := by
  refine ⟨⟨toInt_max_sub_one page, ?_⟩, fun h => ⟨?_, rfl, compile_page_ok h hselect hq, ?_⟩, fun h p => ?_⟩
  · rw [toInt_wordOffset]
    rfl
  · rw [← pageOffset_eq_min h]
    rfl
  · intro hpage hlast hend
    have hnext : (page + 1).toInt = page.toInt + 1 := by
      have hone : (1 : Int64).toInt = 1 := rfl
      have hmax : int64Max = 9223372036854775807 := rfl
      rw [Int64.toInt_add, hone]
      apply Int.bmod_eq_of_le <;> omega
    refine ⟨_, _, rfl, rfl, ?_⟩
    rw [hnext, ← pageOffset_succ h hpage hend]
    rfl
  · obtain ⟨s, hs⟩ := hq
    obtain ⟨f, hf, -⟩ := compile_eq_ok.1 hs
    rw [fragment_of_select hselect] at hf
    obtain ⟨hdefect, -⟩ := select_eq_ok.1 hf
    exact compile_page_of_neg h hselect (selectDefect?_eq_none.1 hdefect).2.1

/-- The orders of a customer and the refunds. -/
def ordersAndRefunds : Query where
  table := some (.named "orders")
  limit := some 5
  branches := [⟨.unionAll, { table := some (.named "refunds") }⟩]

/-- The third page of ten rows, the last page that has a number, and a page of negative size. -/
theorem page_reads_ordersAndRefunds :
    (∃ s, ordersAndRefunds.compile .modern = .ok s) ∧
    (ordersAndRefunds.page 3 10).offset = some 20 ∧ (ordersAndRefunds.page 4 10).offset = some 30 ∧
    (ordersAndRefunds.page int64Max 10).offset = some int64Max ∧
    (ordersAndRefunds.page int64Min (-10)).compile .legacy = .error (.malformedQuery (.negativeLimit (-10))) := by
  have hcompiles : ∃ s, ordersAndRefunds.compile .modern = .ok s := ⟨_, rfl⟩
  obtain ⟨-, hthird, -⟩ := page_reads ordersAndRefunds 3 10 rfl hcompiles
  obtain ⟨hoffset, -, -, hnext⟩ := hthird (by decide)
  obtain ⟨offset, limit, ho, hl, hfourth⟩ := hnext (by decide) (by decide) (by decide)
  obtain ⟨-, hlast, -⟩ := page_reads ordersAndRefunds Int64.maxValue 10 rfl hcompiles
  obtain ⟨-, -, hnegative⟩ := page_reads ordersAndRefunds Int64.minValue (-10) rfl hcompiles
  refine ⟨hcompiles, hoffset, ?_, (hlast (by decide)).1, hnegative (by decide) .legacy⟩
  obtain rfl : 20 = offset := Option.some.inj (hoffset.symm.trans ho)
  obtain rfl : 10 = limit := Option.some.inj hl
  exact hfourth

end Pages

/-! ### The rows of pages -/

section Rows

variable {α : Type}

/-- What a select shows of its rows. -/
def window (q : Query) (rows : List α) : List α :=
  let rest := rows.drop (q.offset.getD 0).toNat
  match q.limit with
  | none => rest
  | some n => rest.take n.toNat

/-- A page that begins within the words shows the rows after those of the pages before it. -/
theorem window_page (q : Query) (rows : List α) {size : Nat} (n : Nat) (h : (n : Int) * size ≤ int64Max) :
    (q.page (n + 1) size).window rows = (rows.drop (n * size)).take size := by
  have hoffset : pageOffset (n + 1) size = (n * size : Nat) := by
    have hmax : max (n + 1 : Int) 1 - 1 = n := by omega
    rw [pageOffset_eq_min (Int.natCast_nonneg size), hmax, Int.natCast_mul]
    omega
  have hwindow : (q.page (n + 1) size).window rows =
      (rows.drop (pageOffset (n + 1) size).toNat).take (size : Int).toNat := rfl
  rw [hwindow, hoffset, Int.toNat_natCast, Int.toNat_natCast]

/-- **Pages leave nothing out and repeat nothing**: the first pages of one size show the first rows, in their order. -/
theorem pages_cover (q : Query) (rows : List α) {size : Nat} (n : Nat) (h : (n : Int) * size ≤ int64Max) :
    (List.range n).flatMap (fun i : Nat => (q.page (i + 1) size).window rows) = rows.take (n * size) := by
  induction n with
  | zero => rw [Nat.zero_mul]; rfl
  | succ n ih =>
    have hbefore : (n : Int) * size ≤ int64Max := by
      have hstep : ((n + 1 : Nat) : Int) * size = n * size + size := by
        rw [Int.natCast_add, Int.add_mul, Int.natCast_one, Int.one_mul]
      omega
    rw [List.range_succ, List.flatMap_append, ih hbefore, List.flatMap_singleton, window_page q rows n hbefore,
      Nat.succ_mul, List.take_add]

end Rows

end SqlQuery.Query
