import SqlQuery.Proofs.Form.Statement
import SqlQuery.Proofs.Paging.Acceptance
import SqlQuery.Proofs.Paging.Text

/-!
# The same statement in two syntaxes

* `Formed.isRaw_eq_false` — without SQL of the caller's own, no piece of a statement is such SQL;
* `Aligned.outside_legacy`, `Aligned.outside_modern` — neither text has words of the other syntax;
* `Query.compile_legacy_modern` — **the two syntaxes agree up to paging**.
-/

namespace SqlQuery

open SqlQuery.Fragment SqlQuery.Text

theorem Formed.isRaw_eq_false {f : Fragment} (h : Formed (fun _ => False) f) : ∀ x ∈ f, x.isRaw = false := by
  induction h with
  | nil => exact fun _ hx => nomatch hx
  | word | name | part | bound => exact List.forall_mem_singleton.2 rfl
  | verbatim h => exact h.elim
  | append _ _ _ ihf ihg => exact List.forall_mem_append.2 ⟨ihf, ihg⟩
  | enclosed _ _ ih =>
    have hword : ∀ w, ∀ x ∈ Fragment.word w, x.isRaw = false := fun _ => List.forall_mem_singleton.2 rfl
    exact List.forall_mem_append.2 ⟨List.forall_mem_append.2 ⟨hword _, ih⟩, hword _⟩

theorem Query.isRaw_eq_false {p : Paging} {q : Query} {f : Fragment} (hraw : q.verbatims = [])
    (h : q.fragment p = .ok f) : ∀ x ∈ f, x.isRaw = false := by
  refine Formed.isRaw_eq_false (Query.fragment_formed ?_ h)
  rw [hraw]
  exact fun _ hr => nomatch hr

namespace Aligned

variable {f g : Fragment}

theorem outside_legacy (h : Aligned f g) (hraw : ∀ x ∈ f, x.isRaw = false) :
    ¬ "offset".toList <:+: outside false f.chars ∧ ¬ "fetch".toList <:+: outside false f.chars := by
  obtain ⟨hoffset, hfetch⟩ := (h.lettered hraw).1.letters
  exact ⟨hoffset.not_infix (u := ['o']) (v := "set".toList) (by decide) fun _ => not_false,
    hfetch.not_infix (u := []) (v := "tch".toList) (by decide) fun _ => not_false⟩

theorem outside_modern (h : Aligned f g) (hraw : ∀ x ∈ f, x.isRaw = false) :
    ¬ "skip".toList <:+: outside false g.chars ∧ ¬ "select first".toList <:+: outside false g.chars := by
  obtain ⟨hskip, hfirst⟩ := (h.lettered hraw).2.letters
  refine ⟨hskip.not_infix (u := ['s', 'k']) (v := []) (by decide) fun _ => not_false,
    hfirst.not_infix (u := "select ".toList) (v := "rst".toList) (by decide) fun a hsuffix => ?_⟩
  have hlong : "h ".toList.length ≤ "select ".toList.length := by decide
  have hshort := List.suffix_of_suffix_length_le hsuffix (List.suffix_append a "select ".toList) hlong
  exact absurd hshort (by decide)

theorem erased_eq (h : Aligned f g) (hraw : ∀ x ∈ f, x.isRaw = false) :
    Paging.legacy.erased (text f) = Paging.modern.erased (text g) := by
  obtain ⟨s, hs⟩ := h.exists_erasing hraw
  exact (hs []).1.trans (hs []).2.symm

end Aligned

/-- **The two syntaxes agree up to paging.**  What legacy paging compiles, modern paging compiles with the same
values; the converse holds if no union that the compiler looks at is paged.  Without SQL of the caller's own the
two texts are the same when the clauses are left out, and outside of double quotes neither has words of the other
syntax. -/
theorem Query.compile_legacy_modern (q : Query) :
    (∀ s, q.compile .legacy = .ok s → ∃ t, q.compile .modern = .ok t ∧ t.params = s.params) ∧
    (q.ReachedUnionsUnpaged → ∀ t, q.compile .modern = .ok t →
      ∃ s, q.compile .legacy = .ok s ∧ s.params = t.params) ∧
    (q.verbatims = [] → ∀ s t, q.compile .legacy = .ok s → q.compile .modern = .ok t →
      Paging.legacy.erased s.sql = Paging.modern.erased t.sql ∧
      (¬ "offset".toList <:+: outside false s.sql.toList ∧ ¬ "fetch".toList <:+: outside false s.sql.toList) ∧
      ¬ "skip".toList <:+: outside false t.sql.toList ∧
      ¬ "select first".toList <:+: outside false t.sql.toList) := by
  have haligned : ∀ f g, q.fragment .legacy = .ok f → q.fragment .modern = .ok g → Aligned f g := by
    intro f g hf hg
    have hagree := Query.fragment_agree paging_simulation q
    rw [q.rewritten_identity, hf, hg] at hagree
    exact hagree
  have hparams : ∀ s t, q.compile .legacy = .ok s → q.compile .modern = .ok t → s.params = t.params := by
    intro s t hs ht
    obtain ⟨f, hf, rfl⟩ := Query.compile_eq_ok.1 hs
    obtain ⟨g, hg, rfl⟩ := Query.compile_eq_ok.1 ht
    exact (haligned f g hf hg).params_eq
  have hlegacy : (∃ s, q.compile .legacy = .ok s) ↔ q.Accepted .legacy := (Query.compile_ok_iff .legacy q).1
  have hmodern : (∃ t, q.compile .modern = .ok t) ↔ q.Accepted .modern := (Query.compile_ok_iff .modern q).1
  refine ⟨fun s hs => ?_, fun hunions t ht => ?_, fun hraw s t hs ht => ?_⟩
  · have haccepted := hlegacy.1 ⟨s, hs⟩
    obtain ⟨t, ht⟩ := hmodern.2 (q.accepted_legacy_iff.1 haccepted).1
    exact ⟨t, ht, (hparams s t hs ht).symm⟩
  · have haccepted := hmodern.1 ⟨t, ht⟩
    obtain ⟨s, hs⟩ := hlegacy.2 (q.accepted_legacy_iff.2 ⟨haccepted, hunions⟩)
    exact ⟨s, hs, hparams s t hs ht⟩
  · obtain ⟨f, hf, rfl⟩ := Query.compile_eq_ok.1 hs
    obtain ⟨g, hg, rfl⟩ := Query.compile_eq_ok.1 ht
    have h := haligned f g hf hg
    have hpieces := Query.isRaw_eq_false hraw hf
    exact ⟨h.erased_eq hpieces, h.outside_legacy hpieces, h.outside_modern hpieces⟩

set_option maxRecDepth 4000

/-- Pages inside of a page, with a name that looks like a clause. -/
def nestedPages : Query where
  table := some (.subquery { table := some (.named "first 1 offset 2 rows"), limit := some 3, offset := some 10 } "p")
  filter := some (.inSelect "p.id"
    { table := some (.named "t"), columns := [.named "id"], orders := [.column "skip 4" .desc], limit := some 5 })
  orders := [.column "p.id" .asc]
  limit := some 20

/-- With the clauses after `select`. -/
def legacyPages : Statement where
  sql := "select first 20 * from (select first 3 skip 10 * from \"first 1 offset 2 rows\") as \"p\" where " ++
    "\"p\".\"id\" in (select first 5 \"id\" from \"t\" order by \"skip 4\" desc) order by \"p\".\"id\" asc"
  params := []

/-- With the clauses at the end of a select. -/
def modernPages : Statement where
  sql := "select * from (select * from \"first 1 offset 2 rows\" offset 10 rows fetch first 3 rows only) as \"p\" " ++
    "where \"p\".\"id\" in (select \"id\" from \"t\" order by \"skip 4\" desc fetch first 5 rows only) " ++
    "order by \"p\".\"id\" asc fetch first 20 rows only"
  params := []

theorem compile_nestedPages : nestedPages.ReachedUnionsUnpaged ∧ nestedPages.verbatims = [] ∧
    nestedPages.compile .legacy = .ok legacyPages ∧ nestedPages.compile .modern = .ok modernPages ∧
    Paging.legacy.erased legacyPages.sql = Paging.modern.erased modernPages.sql ∧
    (¬ "offset".toList <:+: outside false legacyPages.sql.toList ∧
      ¬ "fetch".toList <:+: outside false legacyPages.sql.toList) ∧
    ¬ "skip".toList <:+: outside false modernPages.sql.toList ∧
    ¬ "select first".toList <:+: outside false modernPages.sql.toList := by
  have hunions : nestedPages.ReachedUnionsUnpaged := by
    simp [nestedPages, Filter.inSelect, Query.ReachedUnionsUnpaged, Query.UnionsUnpaged, TableRef.OptUnionsUnpaged,
      TableRef.UnionsUnpaged, Join.AllUnionsUnpaged, Filter.OptUnionsUnpaged, Filter.UnionsUnpaged,
      Predicate.UnionsUnpaged, Branch.AllUnionsUnpaged]
  have hmodern : nestedPages.compile .modern = .ok modernPages := by rfl
  obtain ⟨-, hback, htexts⟩ := nestedPages.compile_legacy_modern
  obtain ⟨s, hs, -⟩ := hback hunions modernPages hmodern
  obtain rfl : s = legacyPages := by
    have hlegacy : nestedPages.compile .legacy = .ok legacyPages := by rfl
    exact Except.ok.inj (hs.symm.trans hlegacy)
  exact ⟨hunions, rfl, hs, hmodern, htexts rfl _ _ hs hmodern⟩

end SqlQuery
