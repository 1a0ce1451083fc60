import Mathlib.Data.List.Forall2
import SqlQuery.Proofs.Session.Probe

/-!
# What a column listing tells

Every row of a listing has to tell one name.  The first row that does not decides the failure, and no part of the
listing is given back then.

* `Row.First`, `Row.first?_eq_some_iff` — the field of a name in any letter case that stands first in the order of keys;
* `Row.Tells`, `Row.Lacks` — a row that tells a column's name, and what is wrong with one that does not;
* `columnNamesFrom_eq_ok_iff`, `columnNamesFrom_eq_error_iff` — the names and the failure of a listing, by induction on
  its rows;
* `Row.Recast`, `Row.Recast.field?_eq` — a row with keys in another letter case and with further fields;
* `columnNames_reads` — **the names of a listing**.
-/

namespace SqlQuery

open SqlQuery.Text

/-! ### The first field of a name -/

/-- The field has this name in some letter case, and no other such field stands before it in the order of keys; of
fields with the same key, the one given first stands first. -/
def Row.First (name : String) (row : Row) (m : Member) : Prop :=
  ∃ before after, row = before ++ m :: after ∧ sameLetters m.key name = true ∧
    (∀ x ∈ before, sameLetters x.key name = true → m.key < x.key) ∧
    ∀ x ∈ after, sameLetters x.key name = true → m.key ≤ x.key

/-- The head of the fields of a name, in the order of keys. -/
def Row.first? (name : String) (row : Row) : Option Member :=
  ((row.filter fun m => sameLetters m.key name).mergeSort Json.keyLe).head?

namespace Row

variable {name : String} {row : Row} {m x : Member}

theorem field?_eq_map_first? (name : String) (row : Row) : row.field? name = (row.first? name).map (·.value) := rfl

theorem keyLe_trans (a b c : Member) (hab : Json.keyLe a b = true) (hbc : Json.keyLe b c = true) :
    Json.keyLe a c = true :=
  decide_eq_true (String.le_trans (of_decide_eq_true hab) (of_decide_eq_true hbc))

theorem keyLe_total (a b : Member) : (Json.keyLe a b || Json.keyLe b a) = true := by
  rw [Bool.or_eq_true]
  exact (String.le_total a.key b.key).imp decide_eq_true decide_eq_true

/-- One more field comes to the head of the sorted ones unless the head has a lower key. -/
theorem head?_mergeSort_cons (m : Member) (ms : List Member) :
    ((m :: ms).mergeSort Json.keyLe).head? =
      some (match (ms.mergeSort Json.keyLe).head? with
        | none => m
        | some b => if m.key ≤ b.key then m else b) := by
  obtain ⟨l₁, l₂, hcons, hms, hlower⟩ := List.mergeSort_cons keyLe_trans keyLe_total m ms
  have hsorted := List.pairwise_mergeSort keyLe_trans keyLe_total (m :: ms)
  rw [hcons] at hsorted
  rw [hcons, hms]
  cases l₁ with
  | nil =>
    cases l₂ with
    | nil => rfl
    | cons b l₂ =>
      have hle : m.key ≤ b.key := of_decide_eq_true ((List.pairwise_cons.1 hsorted).1 b List.mem_cons_self)
      simp only [List.nil_append, List.head?_cons, if_pos hle]
  | cons b l₁ =>
    have hnot : ¬ m.key ≤ b.key := by
      intro hle
      have hfalse := hlower b List.mem_cons_self
      rw [show Json.keyLe m b = true from decide_eq_true hle] at hfalse
      exact nomatch hfalse
    simp only [List.cons_append, List.head?_cons, if_neg hnot]

theorem first?_eq_none_iff : row.first? name = none ↔ ∀ m ∈ row, sameLetters m.key name = false := by
  rw [first?, List.head?_eq_none_iff, ← List.length_eq_zero_iff, List.length_mergeSort, List.length_eq_zero_iff,
    List.filter_eq_nil_iff]
  simp only [Bool.not_eq_true]

theorem First.le (h : row.First name m) (hx : x ∈ row) (hname : sameLetters x.key name = true) : m.key ≤ x.key := by
  obtain ⟨before, after, rfl, -, hbefore, hafter⟩ := h
  rcases List.mem_append.1 hx with hx | hx
  · exact String.not_lt.1 (String.lt_asymm (hbefore x hx hname))
  · rcases List.mem_cons.1 hx with rfl | hx
    · exact String.le_refl _
    · exact hafter x hx hname

theorem first_nil : ¬ First name [] m := by
  rintro ⟨before, after, h, -⟩
  exact absurd h.symm (List.append_ne_nil_of_right_ne_nil before (List.cons_ne_nil m after))

theorem first_cons_of_ne (hx : sameLetters x.key name = false) : First name (x :: row) m ↔ First name row m := by
  constructor
  · rintro ⟨before, after, h, hm, hbefore, hafter⟩
    cases before with
    | nil =>
      obtain ⟨rfl, rfl⟩ := List.cons.inj h
      exact absurd (hx.symm.trans hm) Bool.false_ne_true
    | cons y before =>
      obtain ⟨rfl, rfl⟩ := List.cons.inj h
      exact ⟨before, after, rfl, hm, (List.forall_mem_cons.1 hbefore).2, hafter⟩
  · rintro ⟨before, after, rfl, hm, hbefore, hafter⟩
    refine ⟨x :: before, after, rfl, hm, List.forall_mem_cons.2 ⟨fun h => ?_, hbefore⟩, hafter⟩
    exact absurd (hx.symm.trans h) Bool.false_ne_true

theorem first_cons_of_same (hx : sameLetters x.key name = true) : First name (x :: row) m ↔
    (m = x ∧ ∀ y ∈ row, sameLetters y.key name = true → x.key ≤ y.key) ∨ (m.key < x.key ∧ First name row m) := by
  constructor
  · rintro ⟨before, after, h, hm, hbefore, hafter⟩
    cases before with
    | nil =>
      obtain ⟨rfl, rfl⟩ := List.cons.inj h
      exact .inl ⟨rfl, hafter⟩
    | cons y before =>
      obtain ⟨rfl, rfl⟩ := List.cons.inj h
      obtain ⟨hlt, hbefore⟩ := List.forall_mem_cons.1 hbefore
      exact .inr ⟨hlt hx, before, after, rfl, hm, hbefore, hafter⟩
  · rintro (⟨rfl, hrow⟩ | ⟨hlt, before, after, rfl, hm, hbefore, hafter⟩)
    · exact ⟨[], row, rfl, hx, nofun, hrow⟩
    · exact ⟨x :: before, after, rfl, hm, List.forall_mem_cons.2 ⟨fun _ => hlt, hbefore⟩, hafter⟩

theorem first?_cons_of_ne (hx : sameLetters x.key name = false) : first? name (x :: row) = first? name row := by
  unfold first?
  rw [List.filter_cons_of_neg (by rw [hx]; exact Bool.false_ne_true)]

theorem first?_cons_of_same (hx : sameLetters x.key name = true) : first? name (x :: row) =
    some (match first? name row with
      | none => x
      | some b => if x.key ≤ b.key then x else b) := by
  have hfilter : ((x :: row).filter fun m => sameLetters m.key name) =
      x :: row.filter fun m => sameLetters m.key name := List.filter_cons_of_pos hx
  unfold first?
  rw [hfilter]
  exact head?_mergeSort_cons x _

/-- **The first field**, by induction on the fields: one more comes first unless the first of the others has a lower
key. -/
theorem first?_eq_some_iff : first? name row = some m ↔ First name row m := by
  induction row generalizing m with
  | nil =>
    have hnone : first? name [] = none := first?_eq_none_iff.2 nofun
    rw [hnone]
    exact ⟨nofun, fun h => absurd h first_nil⟩
  | cons x row ih =>
    by_cases hx : sameLetters x.key name = true
    · rw [first?_cons_of_same hx, first_cons_of_same hx, Option.some.injEq]
      cases hb : first? name row with
      | none =>
        have hnone := first?_eq_none_iff.1 hb
        constructor
        · rintro rfl
          refine .inl ⟨rfl, fun y hy hname => ?_⟩
          exact absurd ((hnone y hy).symm.trans hname) Bool.false_ne_true
        · rintro (⟨rfl, -⟩ | ⟨-, h⟩)
          · rfl
          · exact absurd (hb.symm.trans (ih.2 h)) nofun
      | some b =>
        have hfirst := ih.1 hb
        dsimp only
        by_cases hle : x.key ≤ b.key
        · rw [if_pos hle]
          constructor
          · rintro rfl
            exact .inl ⟨rfl, fun y hy hname => String.le_trans hle (hfirst.le hy hname)⟩
          · rintro (⟨rfl, -⟩ | ⟨hlt, h⟩)
            · rfl
            · obtain rfl : b = m := Option.some.inj (hb.symm.trans (ih.2 h))
              exact absurd hle (String.not_le.2 hlt)
        · rw [if_neg hle]
          constructor
          · rintro rfl
            exact .inr ⟨String.not_le.1 hle, hfirst⟩
          · rintro (⟨rfl, hrow⟩ | ⟨-, h⟩)
            · obtain ⟨before, after, rfl, hname, -⟩ := hfirst
              exact absurd (hrow b (List.mem_append_right _ List.mem_cons_self) hname) hle
            · exact Option.some.inj (hb.symm.trans (ih.2 h))
    · rw [Bool.not_eq_true] at hx
      rw [first?_cons_of_ne hx, ih, first_cons_of_ne hx]

end Row

/-! ### The name in a row -/

/-- The row tells this name: the first field of a column's name is that string. -/
def Row.Tells (row : Row) (name : String) : Prop :=
  ∃ m, row.First columnNameField m ∧ m.value = .string name

/-- What is wrong with the row of this index if it tells no name: there is no such field, or the first one is no
string. -/
inductive Row.Lacks (row : Row) (index : Nat) : RowFault → Prop
  | field : (∀ m ∈ row, sameLetters m.key columnNameField = false) → Lacks row index (.noColumnName index)
  | text {m : Member} : row.First columnNameField m → (∀ name, m.value ≠ .string name) →
      Lacks row index (.columnNameNotString index (shownValue m.value))

section Listing

variable {index : Nat} {row : Row} {rows : List Row} {names : List String}

theorem columnName_eq_ok_iff {name : String} : columnName index row = .ok name ↔ row.Tells name := by
  rw [columnName, Row.field?_eq_map_first?, Row.Tells]
  simp only [← Row.first?_eq_some_iff]
  cases Row.first? columnNameField row with
  | none => exact ⟨nofun, fun ⟨_, h, _⟩ => nomatch h⟩
  | some m =>
    obtain ⟨key, value⟩ := m
    constructor
    · intro h
      cases value with
      | string s =>
        cases h
        exact ⟨_, rfl, rfl⟩
      | _ => exact nomatch h
    · rintro ⟨m, h, hvalue⟩
      cases h
      dsimp only at hvalue
      subst hvalue
      rfl

theorem columnName_eq_error_iff {e : Error} :
    columnName index row = .error e ↔ ∃ fault, row.Lacks index fault ∧ e = .malformedRow fault := by
  constructor
  · intro h
    rw [columnName, Row.field?_eq_map_first?] at h
    cases hfirst : Row.first? columnNameField row with
    | none =>
      rw [hfirst] at h
      cases h
      exact ⟨_, .field (Row.first?_eq_none_iff.1 hfirst), rfl⟩
    | some m =>
      obtain ⟨key, value⟩ := m
      rw [hfirst] at h
      have htext : ∀ name, value ≠ .string name := by
        rintro name rfl
        exact nomatch h
      refine ⟨_, .text (Row.first?_eq_some_iff.1 hfirst) htext, ?_⟩
      cases value with
      | string s => exact absurd rfl (htext s)
      | _ => exact (Except.error.inj h).symm
  · rintro ⟨fault, hlacks, rfl⟩
    rw [columnName, Row.field?_eq_map_first?]
    cases hlacks with
    | field h => rw [Row.first?_eq_none_iff.2 h]; rfl
    | @text m hfirst h =>
      obtain ⟨key, value⟩ := m
      rw [Row.first?_eq_some_iff.2 hfirst]
      cases value with
      | string s => exact absurd rfl (h s)
      | _ => rfl

/-- A row tells a name or lacks one. -/
theorem Row.Lacks.not_tells {fault : RowFault} (h : row.Lacks index fault) (name : String) : ¬ row.Tells name := by
  intro hname
  have herror := columnName_eq_error_iff.2 ⟨fault, h, rfl⟩
  rw [columnName_eq_ok_iff.2 hname] at herror
  exact nomatch herror

theorem Row.exists_lacks (h : ¬ ∃ name, row.Tells name) (index : Nat) : ∃ fault, row.Lacks index fault := by
  cases hname : columnName index row with
  | ok name => exact absurd ⟨name, columnName_eq_ok_iff.1 hname⟩ h
  | error e =>
    obtain ⟨fault, hlacks, -⟩ := columnName_eq_error_iff.1 hname
    exact ⟨fault, hlacks⟩

/-! ### The names of the rows -/

/-- Every row tells its name. -/
theorem columnNamesFrom_eq_ok_iff :
    columnNamesFrom index rows = .ok names ↔ List.Forall₂ Row.Tells rows names := by
  induction rows generalizing index names with
  | nil =>
    rw [columnNamesFrom, List.forall₂_nil_left_iff]
    exact ⟨fun h => (Except.ok.inj h).symm, fun h => h ▸ rfl⟩
  | cons row rows ih =>
    rw [columnNamesFrom]
    simp only [bind_eq_ok, pure_eq_ok, columnName_eq_ok_iff, ih]
    constructor
    · rintro ⟨name, hname, names, hnames, rfl⟩
      exact .cons hname hnames
    · rintro (_ | ⟨hname, hnames⟩)
      exact ⟨_, hname, _, hnames, rfl⟩

/-- A row that tells no name ends the listing, whatever stands after it. -/
theorem columnNamesFrom_of_lacks {before after : List Row} {fault : RowFault}
    (hbefore : ∀ r ∈ before, ∃ name, r.Tells name) (h : row.Lacks (index + before.length) fault) :
    columnNamesFrom index (before ++ row :: after) = .error (.malformedRow fault) := by
  induction before generalizing index with
  | nil =>
    have hrow : columnName index row = .error (.malformedRow fault) := columnName_eq_error_iff.2 ⟨fault, h, rfl⟩
    rw [List.nil_append, columnNamesFrom, hrow]
    rfl
  | cons r before ih =>
    obtain ⟨⟨name, hname⟩, hbefore⟩ := List.forall_mem_cons.1 hbefore
    have hlength : index + (r :: before).length = index + 1 + before.length := by
      rw [List.length_cons]
      omega
    rw [hlength] at h
    rw [List.cons_append, columnNamesFrom, columnName_eq_ok_iff.2 hname, ih hbefore h]
    rfl

/-- **The first row** that tells no name decides the failure. -/
theorem columnNamesFrom_eq_error_iff {e : Error} : columnNamesFrom index rows = .error e ↔
    ∃ before row after fault, rows = before ++ row :: after ∧ (∀ r ∈ before, ∃ name, r.Tells name) ∧
      row.Lacks (index + before.length) fault ∧ e = .malformedRow fault := by
  constructor
  · intro h
    induction rows generalizing index with
    | nil => exact nomatch h
    | cons row rows ih =>
      cases hrow : columnName index row with
      | error e' =>
        rw [columnNamesFrom, hrow] at h
        cases h
        obtain ⟨fault, hlacks, rfl⟩ := columnName_eq_error_iff.1 hrow
        exact ⟨[], row, rows, fault, rfl, nofun, hlacks, rfl⟩
      | ok name =>
        have hrows : columnNamesFrom (index + 1) rows = .error e := by
          rw [columnNamesFrom, hrow] at h
          cases hrest : columnNamesFrom (index + 1) rows with
          | error e' =>
            rw [hrest] at h
            exact h
          | ok names =>
            rw [hrest] at h
            exact nomatch h
        obtain ⟨before, row', after, fault, rfl, hbefore, hlacks, rfl⟩ := ih hrows
        have hlength : index + (row :: before).length = index + 1 + before.length := by
          rw [List.length_cons]
          omega
        refine ⟨row :: before, row', after, fault, rfl, ?_, ?_, rfl⟩
        · exact List.forall_mem_cons.2 ⟨⟨name, columnName_eq_ok_iff.1 hrow⟩, hbefore⟩
        · rw [hlength]
          exact hlacks
  · rintro ⟨before, row, after, fault, rfl, hbefore, hlacks, rfl⟩
    exact columnNamesFrom_of_lacks hbefore hlacks

/-- A listing succeeds when all its rows tell their names. -/
theorem exists_columnNames_iff : (∃ names, columnNamesFrom index rows = .ok names) ↔
    ∀ row ∈ rows, ∃ name, row.Tells name := by
  constructor
  · rintro ⟨names, hnames⟩ row hrow
    have hforall := columnNamesFrom_eq_ok_iff.1 hnames
    obtain ⟨i, hi, rfl⟩ := List.getElem_of_mem hrow
    exact ⟨_, hforall.get hi (hforall.length_eq ▸ hi)⟩
  · intro h
    cases hnames : columnNamesFrom index rows with
    | ok names => exact ⟨names, rfl⟩
    | error e =>
      obtain ⟨before, row, after, fault, rfl, -, hlacks, -⟩ := columnNamesFrom_eq_error_iff.1 hnames
      obtain ⟨name, hname⟩ := h row (List.mem_append_right _ List.mem_cons_self)
      exact absurd hname (hlacks.not_tells name)

end Listing

/-! ### Rows in other letters and with more fields -/

/-- The second row is the first one with keys in another letter case and with further fields, none of them a column's
name, in any order. -/
inductive Row.Recast : Row → Row → Prop
  | nil : Recast [] []
  | respelled {m : Member} {key : String} {s t : Row} : sameLetters key m.key = true → Recast s t →
      Recast (m :: s) (⟨key, m.value⟩ :: t)
  | added {m : Member} {s t : Row} : sameLetters m.key columnNameField = false → Recast s t → Recast s (m :: t)
  | reordered {s t u : Row} : t.Perm u → Recast s t → Recast s u

/-- The values of the fields that are a column's name. -/
def Row.nameValues (row : Row) : List Json :=
  (row.filter fun m => sameLetters m.key columnNameField).map (·.value)

namespace Row

theorem nameValues_cons (m : Member) (row : Row) : nameValues (m :: row) =
    if sameLetters m.key columnNameField = true then m.value :: nameValues row else nameValues row := by
  unfold nameValues
  rw [List.filter_cons]
  split <;> rfl

/-- The fields that are a column's name keep their values. -/
theorem Recast.nameValues_perm {s t : Row} (h : Recast s t) : t.nameValues.Perm s.nameValues := by
  induction h with
  | nil => exact .refl _
  | @respelled m key s t hkey _ ih =>
    rw [nameValues_cons, nameValues_cons, sameLetters_congr hkey columnNameField]
    split
    · exact ih.cons m.value
    · exact ih
  | @added m s t hm _ ih =>
    rw [nameValues_cons, hm, if_neg Bool.false_ne_true]
    exact ih
  | @reordered s t u hperm _ ih => exact ((hperm.symm.filter _).map _).trans ih

theorem field?_of_nameValues {s : Row} {value : Json} (h : s.nameValues = [value]) :
    s.field? columnNameField = some value := by
  obtain ⟨m, hm, rfl⟩ := List.map_eq_singleton_iff.1 h
  exact field?_of_filter hm

/-- With one field of the name, the row is read as before. -/
theorem Recast.field?_eq {s t : Row} (h : Recast s t) (hone : s.nameValues.length = 1) :
    t.field? columnNameField = s.field? columnNameField := by
  obtain ⟨value, hs⟩ := List.length_eq_one_iff.1 hone
  have ht := h.nameValues_perm
  rw [hs, List.perm_singleton] at ht
  rw [field?_of_nameValues hs, field?_of_nameValues ht]

end Row

theorem columnNamesFrom_recast {rows rows' : List Row} (h : List.Forall₂ Row.Recast rows rows')
    (hone : ∀ row ∈ rows, row.nameValues.length = 1) (index : Nat) :
    columnNamesFrom index rows' = columnNamesFrom index rows := by
  induction h generalizing index with
  | nil => rfl
  | @cons row row' rows rows' hrow _ ih =>
    obtain ⟨hfirst, hone⟩ := List.forall_mem_cons.1 hone
    have hname : columnName index row' = columnName index row := by
      rw [columnName, columnName, hrow.field?_eq hfirst]
    rw [columnNamesFrom, columnNamesFrom, hname, ih hone]

/-! ### Listings -/

/-- **The names of a listing.**  A listing succeeds exactly when each of its rows tells a name, and then it has the name
of each row, in their order.  It fails with what the first other row lacks, whatever stands after that row.  Listings
one after the other give the names of both, and neither the letter case of keys nor further fields matter to rows with
one field of the name. -/
theorem columnNames_reads (rows : List Row) :
    ((∃ names, columnNames rows = .ok names) ↔ ∀ row ∈ rows, ∃ name, row.Tells name) ∧
    (∀ names, columnNames rows = .ok names → names.length = rows.length ∧
      ∀ (i : Nat) (hrow : i < rows.length) (hname : i < names.length), rows[i].Tells names[i]) ∧
    (∀ e, columnNames rows = .error e ↔
      ∃ before row after fault, rows = before ++ row :: after ∧ (∀ r ∈ before, ∃ name, r.Tells name) ∧
        row.Lacks before.length fault ∧ e = .malformedRow fault) ∧
    (∀ later names names', columnNames rows = .ok names → columnNames later = .ok names' →
      columnNames (rows ++ later) = .ok (names ++ names')) ∧
    ∀ rows', List.Forall₂ Row.Recast rows rows' → (∀ row ∈ rows, row.nameValues.length = 1) →
      columnNames rows' = columnNames rows := by
  refine ⟨exists_columnNames_iff, fun names h => ?_, fun e => ?_, fun later names names' h h' => ?_, ?_⟩
  · have hforall := columnNamesFrom_eq_ok_iff.1 h
    exact ⟨hforall.length_eq.symm, fun i hrow hname => hforall.get hrow hname⟩
  · have herror : columnNames rows = .error e ↔ _ := columnNamesFrom_eq_error_iff
    simpa only [Nat.zero_add] using herror
  · have hforall := columnNamesFrom_eq_ok_iff.1 h
    have hforall' := columnNamesFrom_eq_ok_iff.1 h'
    exact columnNamesFrom_eq_ok_iff.2 (List.rel_append hforall hforall')
  · exact fun rows' h hone => columnNamesFrom_recast h hone 0

/-- A row with a name and no other field. -/
def namedRow (name : String) : Row := [⟨"column_name", .string name⟩]

/-- The same row from a driver that writes keys in capitals and counts the columns. -/
def capitalRow (name : String) (position : Int) : Row := [⟨"POSITION", .int position⟩, ⟨"COLUMN_NAME", .string name⟩]

theorem namedRow_tells (name : String) : (namedRow name).Tells name := by
  have hkey : sameLetters "column_name" columnNameField = true := by decide
  exact ⟨_, ⟨[], [], rfl, hkey, nofun, nofun⟩, rfl⟩

theorem namedRow_recast (name : String) (position : Int) : (namedRow name).Recast (capitalRow name position) := by
  have hposition : sameLetters "POSITION" columnNameField = false := by decide
  have hkey : sameLetters "COLUMN_NAME" "column_name" = true := by decide
  exact .added hposition (.respelled hkey .nil)

/-- Two names, from either driver, and a listing that a number spoils. -/
theorem columnNames_reads_prices :
    columnNames [namedRow "ID", namedRow "PRICE"] = .ok ["ID", "PRICE"] ∧
    columnNames [capitalRow "ID" 0, capitalRow "PRICE" 1] = .ok ["ID", "PRICE"] ∧
    columnNames [namedRow "ID", namedRow "PRICE", [⟨"column_name", .int 5⟩], []] =
      .error (.malformedRow (.columnNameNotString 2 (shownValue (.int 5)))) := by
  have hone : ∀ name, columnNames [namedRow name] = .ok [name] := fun name =>
    columnNamesFrom_eq_ok_iff.2 (.cons (namedRow_tells name) .nil)
  obtain ⟨-, -, -, happend, -⟩ := columnNames_reads [namedRow "ID"]
  have hboth := happend _ _ _ (hone "ID") (hone "PRICE")
  obtain ⟨-, -, -, -, hrecast⟩ := columnNames_reads [namedRow "ID", namedRow "PRICE"]
  obtain ⟨-, -, herror, -, -⟩ := columnNames_reads [namedRow "ID", namedRow "PRICE", [⟨"column_name", .int 5⟩], []]
  refine ⟨hboth, ?_, (herror _).2 ⟨[namedRow "ID", namedRow "PRICE"], _, _, _, rfl, ?_, ?_, rfl⟩⟩
  · rw [hrecast _ (.cons (namedRow_recast "ID" 0) (.cons (namedRow_recast "PRICE" 1) .nil)) ?_]
    · exact hboth
    · intro row hrow
      rcases List.mem_pair.1 hrow with rfl | rfl <;> rfl
  · intro row hrow
    rcases List.mem_pair.1 hrow with rfl | rfl <;> exact ⟨_, namedRow_tells _⟩
  · exact .text ⟨[], [], rfl, by rfl, nofun, nofun⟩ nofun

end SqlQuery
