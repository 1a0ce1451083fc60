import Mathlib.Data.List.Forall2
import Mathlib.Data.List.Nodup
import Mathlib.Data.List.Perm.Basic
import SqlQuery.Query.Decode
import SqlQuery.Query.Encode

/-!
# Trees with fields left out

A description can be written without the fields that have their defaults, at every level, and the members of an
object can stand in any order.  Reading is proved against all trees that come from one in this way.

* `Json.depth` — how many objects and arrays stand inside each other;
* `Json.Trimmed` — a tree, and what is left of it when some objects lack some default fields;
* `Json.shortest` — the tree without any default field;
* `Json.ReadsAs` — a reader takes every tree that is left of a given one for the same thing;
* `ReadsAs.leaf`, `ReadsAs.tagged`, `ReadsAs.list`, `ReadsAs.pair`, `ReadsAs.record` — **one lemma for each way of
  writing**, and `Found.required`, `Found.optional`, `Found.defaulted` for the fields of a record.
-/

namespace SqlQuery

namespace Json

/-! ### Depth -/

mutual

/-- How many objects and arrays stand inside each other. -/
def depth : Json → Nat
  | array items => depthItems items + 1
  | object members => depthMembers members + 1
  | _ => 0

def depthItems : List Json → Nat
  | [] => 0
  | j :: js => max j.depth (depthItems js)

def depthMembers : List Member → Nat
  | [] => 0
  | ⟨_, value⟩ :: ms => max value.depth (depthMembers ms)

end

theorem depth_le_depthMembers {m : Member} {members : List Member} (h : m ∈ members) :
    m.value.depth ≤ depthMembers members := by
  induction members with
  | nil => cases h
  | cons m' ms ih =>
    obtain ⟨key, value⟩ := m'
    rw [depthMembers]
    rcases List.mem_cons.1 h with rfl | h
    · exact Nat.le_max_left _ _
    · exact Nat.le_trans (ih h) (Nat.le_max_right _ _)

/-! ### What is left of a tree -/

/-- The defaults in the parts of a query. -/
def partDefaults : Json :=
  .object [⟨"on", .null⟩, ⟨"alias", .null⟩, ⟨"bindings", .array []⟩, ⟨"negated", .bool false⟩]

/-- What a field stands for when it is left out: a field of a query for what it is in the query that says nothing. -/
def default? (key : String) : Option Json :=
  ((Query.encode {}).get? key).or (partDefaults.get? key)

/-- The field can be left out. -/
def IsDefault (m : Member) : Prop :=
  default? m.key = some m.value

mutual

/-- The second tree is left of the first when some objects in it lack some of the fields that have their default;
members may have changed places. -/
inductive Trimmed : Json → Json → Prop
  | same (j : Json) : Trimmed j j
  | array {items items' : List Json} (h : List.Forall₂ Trimmed items items') : Trimmed (.array items) (.array items')
  | object {members kept members' : List Member} (h : TrimmedMembers members kept) (hperm : kept.Perm members') :
    Trimmed (.object members) (.object members')

/-- The same of the members of an object, in their order. -/
inductive TrimmedMembers : List Member → List Member → Prop
  | nil : TrimmedMembers [] []
  | keep {key : String} {value value' : Json} {members kept : List Member}
    (hvalue : Trimmed value value') (h : TrimmedMembers members kept) :
    TrimmedMembers (⟨key, value⟩ :: members) (⟨key, value'⟩ :: kept)
  | drop {m : Member} {members kept : List Member} (hdefault : IsDefault m) (h : TrimmedMembers members kept) :
    TrimmedMembers (m :: members) kept

end

theorem TrimmedMembers.same (members : List Member) : TrimmedMembers members members := by
  induction members with
  | nil => exact .nil
  | cons m ms ih =>
    obtain ⟨key, value⟩ := m
    exact .keep (.same value) ih

theorem Trimmed.eq_of_leaf {j j' : Json} (h : Trimmed j j') (hj : j.depth = 0) : j' = j := by
  cases h with
  | same => rfl
  | array | object => simp [depth] at hj

theorem Trimmed.ne_null {j j' : Json} (h : Trimmed j j') (hj : j ≠ .null) : j' ≠ .null := by
  cases h with
  | same => exact hj
  | array | object => exact nofun

theorem Trimmed.of_array {items : List Json} {j : Json} (h : Trimmed (.array items) j) :
    ∃ items', j = .array items' ∧ List.Forall₂ Trimmed items items' := by
  cases h with
  | same => exact ⟨items, rfl, List.forall₂_same.2 fun j _ => .same j⟩
  | array h => exact ⟨_, rfl, h⟩

theorem Trimmed.of_object {members : List Member} {j : Json} (h : Trimmed (.object members) j) :
    ∃ kept members', j = .object members' ∧ TrimmedMembers members kept ∧ kept.Perm members' := by
  cases h with
  | same => exact ⟨members, members, rfl, .same members, .refl _⟩
  | object h hperm => exact ⟨_, _, rfl, h, hperm⟩

/-- The member of an object that names a kind stays. -/
theorem Trimmed.of_tagged {tag : String} {content j : Json} (h : Trimmed (.tagged tag content) j)
    (htag : default? tag = none) : ∃ content', j = .tagged tag content' ∧ Trimmed content content' := by
  obtain ⟨kept, members', rfl, hkept, hperm⟩ := h.of_object
  cases hkept with
  | keep hvalue h =>
    cases h
    rw [List.singleton_perm] at hperm
    subst hperm
    exact ⟨_, rfl, hvalue⟩
  | drop hdefault => exact nomatch htag.symm.trans hdefault

/-! ### The shortest tree -/

/-- Two leaves, or empty lists, that are the same. -/
def sameLeaf : Json → Json → Bool
  | null, null => true
  | bool b, bool c => b == c
  | string s, string t => s == t
  | array [], array [] => true
  | _, _ => false

theorem eq_of_sameLeaf {j j' : Json} (h : sameLeaf j j' = true) : j = j' := by
  unfold sameLeaf at h
  split at h
  · rfl
  · rw [eq_of_beq h]
  · rw [eq_of_beq h]
  · rfl
  · cases h

mutual

/-- The tree without any field that has its default. -/
def shortest : Json → Json
  | array items => array (shortestItems items)
  | object members => object (shortestMembers members)
  | j => j

def shortestItems : List Json → List Json
  | [] => []
  | j :: js => j.shortest :: shortestItems js

def shortestMembers : List Member → List Member
  | [] => []
  | ⟨key, value⟩ :: ms =>
    if (default? key).any (sameLeaf value) then shortestMembers ms
    else ⟨key, value.shortest⟩ :: shortestMembers ms

end

mutual

theorem trimmed_shortest : (j : Json) → Trimmed j j.shortest
  | array items => .array (trimmed_shortestItems items)
  | object members => .object (trimmed_shortestMembers members) (.refl _)
  | null | bool _ | int _ | float _ | string _ | unreadable => .same _

theorem trimmed_shortestItems : (items : List Json) → List.Forall₂ Trimmed items (shortestItems items)
  | [] => .nil
  | j :: js => .cons (trimmed_shortest j) (trimmed_shortestItems js)

theorem trimmed_shortestMembers : (members : List Member) → TrimmedMembers members (shortestMembers members)
  | [] => .nil
  | ⟨key, value⟩ :: ms => by
    rw [shortestMembers]
    split
    · next hdefault =>
      obtain ⟨written, hkey, hsame⟩ := (Option.any_eq_true _ _).1 hdefault
      rw [← eq_of_sameLeaf hsame] at hkey
      exact .drop hkey (trimmed_shortestMembers ms)
    · exact .keep (trimmed_shortest value) (trimmed_shortestMembers ms)

end
/-! ### The fields of a record -/

/-- What a reader finds for a field: the value that is left of the one that was written, or nothing if it could be left
out. -/
inductive Found (m : Member) (n : Nat) : Option Json → Prop
  | there {value : Json} (h : Trimmed m.value value) (hn : value.depth ≤ n) : Found m n (some value)
  | missing (h : IsDefault m) : Found m n none

/-- What became of each member. -/
theorem TrimmedMembers.mem {members kept : List Member} (h : TrimmedMembers members kept)
    (hkeys : (members.map Member.key).Nodup) : (kept.map Member.key).Nodup ∧
      (∀ key ∈ kept.map Member.key, key ∈ members.map Member.key) ∧
      ∀ m ∈ members, (∃ value, ⟨m.key, value⟩ ∈ kept ∧ Trimmed m.value value) ∨
        m.key ∉ kept.map Member.key ∧ IsDefault m := by
  induction members generalizing kept with
  | nil =>
    cases h
    simp
  | cons m ms ih =>
    rw [List.map_cons, List.nodup_cons] at hkeys
    cases h with
    | keep hvalue h =>
      obtain ⟨hnodup, hsub, hmem⟩ := ih h hkeys.2
      refine ⟨List.nodup_cons.2 ⟨fun hkey => hkeys.1 (hsub _ hkey), hnodup⟩, ?_, ?_⟩
      · intro key hkey
        rcases List.mem_cons.1 hkey with rfl | hkey
        · exact List.mem_cons_self
        · exact List.mem_cons_of_mem _ (hsub key hkey)
      · intro m' hm'
        rcases List.mem_cons.1 hm' with rfl | hm'
        · exact .inl ⟨_, List.mem_cons_self, hvalue⟩
        · rcases hmem m' hm' with ⟨value, hkept, htrimmed⟩ | ⟨hkey, hdefault⟩
          · exact .inl ⟨value, List.mem_cons_of_mem _ hkept, htrimmed⟩
          · refine .inr ⟨fun hcons => ?_, hdefault⟩
            rcases List.mem_cons.1 hcons with heq | hcons
            · exact hkeys.1 (heq ▸ List.mem_map_of_mem hm')
            · exact hkey hcons
    | drop hdefault h =>
      obtain ⟨hnodup, hsub, hmem⟩ := ih h hkeys.2
      refine ⟨hnodup, fun key hkey => List.mem_cons_of_mem _ (hsub key hkey), ?_⟩
      intro m' hm'
      rcases List.mem_cons.1 hm' with rfl | hm'
      · exact .inr ⟨fun hkey => hkeys.1 (hsub _ hkey), hdefault⟩
      · exact hmem m' hm'

/-- With every key once, a lookup finds the member that is there. -/
theorem find?_key {members : List Member} (hkeys : (members.map Member.key).Nodup) {m : Member} (hm : m ∈ members) :
    members.find? (·.key == m.key) = some m := by
  induction members with
  | nil => cases hm
  | cons m' ms ih =>
    rw [List.map_cons, List.nodup_cons] at hkeys
    rcases List.mem_cons.1 hm with rfl | hm
    · rw [List.find?_cons_of_pos (by simp)]
    · have hne : m'.key ≠ m.key := fun heq => hkeys.1 (heq ▸ List.mem_map_of_mem hm)
      rw [List.find?_cons_of_neg (by simpa using hne), ih hkeys.2 hm]

theorem keysOnce_of_nodup {members : List Member} (hkeys : (members.map Member.key).Nodup) (names : List String) :
    keysOnce names members = true := by
  refine List.all_eq_true.2 fun name _ => decide_eq_true ?_
  have hcount : (members.filter (·.key == name)).length = (members.map Member.key).count name := by
    rw [← List.countP_eq_length_filter, List.count, List.countP_map]
    rfl
  rw [hcount]
  exact List.nodup_iff_count_le_one.1 hkeys name

/-- **The fields of a record.**  Whatever is left of an object with every key once, its record is read, and for every
member that was written the reader finds what is left of it. -/
theorem Trimmed.record {members : List Member} {j : Json} (h : Trimmed (.object members) j)
    (hkeys : (members.map Member.key).Nodup) {n : Nat} (hn : j.depth ≤ n + 1) (positional : Bool)
    (names : List String) (least : Nat) :
    ∃ get, j.record? positional names least = some get ∧ ∀ m ∈ members, Found m n (get m.key) := by
  obtain ⟨kept, members', rfl, hkept, hperm⟩ := h.of_object
  obtain ⟨hnodup, -, hmem⟩ := hkept.mem hkeys
  have hnodup' : (members'.map Member.key).Nodup := (hperm.map Member.key).nodup_iff.1 hnodup
  refine ⟨_, by rw [record?, if_pos (keysOnce_of_nodup hnodup' names)], fun m hm => ?_⟩
  rw [depth] at hn
  rcases hmem m hm with ⟨value, hthere, htrimmed⟩ | ⟨hkey, hdefault⟩
  · have hthere' := hperm.mem_iff.1 hthere
    have hdepth : value.depth ≤ depthMembers members' := depth_le_depthMembers hthere'
    have hfind : members'.find? (·.key == m.key) = some ⟨m.key, value⟩ := find?_key hnodup' hthere'
    rw [hfind]
    exact .there htrimmed (Nat.le_trans hdepth (by omega))
  · have hnone : members'.find? (·.key == m.key) = none := by
      refine List.find?_eq_none.2 fun m' hm' heq => hkey ?_
      rw [← eq_of_beq heq]
      exact List.mem_map_of_mem (hperm.mem_iff.2 hm')
    rw [hnone]
    exact .missing hdefault

/-! ### Readers -/

variable {α β γ : Type}

/-- The reader takes whatever is left of the tree for the same thing, as long as it may go deep enough. -/
def ReadsAs (read : Nat → Json → Option α) (j : Json) (a : α) : Prop :=
  ∀ j', Trimmed j j' → ∀ n, j'.depth ≤ n → read n j' = some a

namespace ReadsAs

variable {read : Nat → Json → Option α} {j : Json} {a : α}

theorem leaf (hj : j.depth = 0) (h : ∀ n, read n j = some a) : ReadsAs read j a := by
  intro j' hj' n _
  rw [hj'.eq_of_leaf hj]
  exact h n

theorem map (f : α → β) (h : ReadsAs read j a) : ReadsAs (fun n j => f <$> read n j) j (f a) := by
  intro j' hj' n hn
  simp only [h j' hj' n hn]
  rfl

theorem tagged {tag : String} (htag : default? tag = none)
    (h : ReadsAs (fun n j => read (n + 1) (.tagged tag j)) j a) : ReadsAs read (.tagged tag j) a := by
  intro j' hj' n hn
  obtain ⟨content, rfl, hcontent⟩ := hj'.of_tagged htag
  simp only [Json.tagged, depth, depthMembers] at hn
  obtain ⟨n, rfl⟩ : ∃ k, n = k + 1 := ⟨n - 1, by omega⟩
  exact h content hcontent n (by omega)

/-- Records, from what their readers find. -/
theorem record {members : List Member} {positional : Bool} {names : List String} {least : Nat}
    {readFields : Nat → (String → Option Json) → Option α} (hkeys : (members.map Member.key).Nodup)
    (hread : ∀ n j, read (n + 1) j = j.record? positional names least >>= readFields n)
    (h : ∀ n get, (∀ m ∈ members, Found m n (get m.key)) → readFields n get = some a) :
    ReadsAs read (.object members) a := by
  intro j' hj' n hn
  obtain ⟨n, rfl⟩ : ∃ k, n = k + 1 := by
    obtain ⟨kept, members', rfl, -, -⟩ := hj'.of_object
    exact ⟨n - 1, by rw [depth] at hn; omega⟩
  obtain ⟨get, hget, hfound⟩ := hj'.record hkeys hn positional names least
  rw [hread, hget]
  exact h n get hfound

theorem mapM {items items' : List Json} {as : List α} {n : Nat} (h : List.Forall₂ (ReadsAs read) items as)
    (hitems : List.Forall₂ Trimmed items items') (hn : depthItems items' ≤ n) : items'.mapM (read n) = some as := by
  induction h generalizing items' with
  | nil =>
    cases hitems
    rfl
  | cons hread _ ih =>
    cases hitems with
    | cons hitem hitems =>
      rw [depthItems, Nat.max_le] at hn
      rw [List.mapM_cons, hread _ hitem n hn.1, ih hitems hn.2]
      rfl

theorem list (readAll : Nat → Json → Option (List α)) {items : List Json} {as : List α}
    (hread : ∀ n items, readAll (n + 1) (.array items) = items.mapM (read n))
    (h : List.Forall₂ (ReadsAs read) items as) : ReadsAs readAll (.array items) as := by
  intro j' hj' n hn
  obtain ⟨items', rfl, hitems⟩ := hj'.of_array
  rw [depth] at hn
  obtain ⟨n, rfl⟩ : ∃ k, n = k + 1 := ⟨n - 1, by omega⟩
  rw [hread]
  exact mapM h hitems (by omega)

/-- Two items that are read together. -/
theorem pair {read' : Nat → Json → Option β} {readPair : Nat → Json → Option γ} {j' : Json} {b : β} {f : α → β → γ}
    (h : ReadsAs read j a) (h' : ReadsAs read' j' b)
    (hread : ∀ n i i', readPair (n + 1) (.array [i, i']) = (do return f (← read n i) (← read' n i'))) :
    ReadsAs readPair (.array [j, j']) (f a b) := by
  intro k hk n hn
  obtain ⟨items, rfl, hitems⟩ := hk.of_array
  obtain ⟨i, i', hi, hi', rfl⟩ : ∃ i i', Trimmed j i ∧ Trimmed j' i' ∧ items = [i, i'] := by
    cases hitems with
    | cons hi hitems =>
      cases hitems with
      | cons hi' hitems =>
        cases hitems
        exact ⟨_, _, hi, hi', rfl⟩
  simp only [depth, depthItems] at hn
  obtain ⟨n, rfl⟩ : ∃ k, n = k + 1 := ⟨n - 1, by omega⟩
  rw [hread, h i hi n (by omega), h' i' hi' n (by omega)]
  rfl

theorem enumerated {all : List α} {tag : α → String} (h : all.find? (fun b => tag b == tag a) = some a) :
    ReadsAs (Json.enumerated all tag) (.string (tag a)) a :=
  leaf rfl fun n => by cases n <;> exact h

/-- A tree reads as one thing at most. -/
theorem unique {b : α} (h : ReadsAs read j a) (h' : ReadsAs read j b) : a = b :=
  Option.some.inj ((h j (.same j) j.depth (Nat.le_refl _)).symm.trans (h' j (.same j) j.depth (Nat.le_refl _)))

end ReadsAs

namespace Found

variable {read : Nat → Json → Option α} {key : String} {n : Nat} {value : Json} {found : Option Json} {a : α}

/-- A field that has to be there has no default. -/
theorem required (h : Found ⟨key, value⟩ n found) (hne : default? key ≠ some value) (hread : ReadsAs read value a) :
    Json.required (read n) found = some a := by
  cases h with
  | there h hn => exact hread _ h n hn
  | missing h => exact absurd h hne

theorem defaulted {default : α} {written : Json} (h : Found ⟨key, value⟩ n found)
    (hwritten : default? key = some written) (hdefault : ReadsAs read written default) (hread : ReadsAs read value a) :
    Json.defaulted default (read n) found = some a := by
  cases h with
  | there h hn => exact hread _ h n hn
  | missing h =>
    obtain rfl : written = value := Option.some.inj (hwritten.symm.trans h)
    rw [Json.defaulted, hdefault.unique hread]

/-- A list whose default is the empty one. -/
theorem items (readAll : Nat → Json → Option (List α)) {items : List Json} {as : List α}
    (h : Found ⟨key, .array items⟩ n found) (hwritten : default? key = some (.array []))
    (hread : ∀ n items, readAll (n + 1) (.array items) = items.mapM (read n))
    (hitems : List.Forall₂ (ReadsAs read) items as) : Json.defaulted [] (readAll n) found = some as :=
  h.defaulted hwritten (.list readAll hread .nil) (.list readAll hread hitems)

theorem optional {o : Option α} {encode : α → Json} (h : Found ⟨key, o.elim .null encode⟩ n found)
    (hwritten : default? key = some .null) (hencode : ∀ a, encode a ≠ .null)
    (hread : ∀ a, o = some a → ReadsAs read (encode a) a) : Json.optional (read n) found = some o := by
  cases o with
  | none =>
    cases h with
    | there h hn => rw [h.eq_of_leaf rfl]; rfl
    | missing => rfl
  | some a =>
    cases h with
    | there h hn =>
      have hne := h.ne_null (hencode a)
      rw [Json.optional.eq_3 _ _ hne, hread a rfl _ h n hn]
      rfl
    | missing h => exact absurd (Option.some.inj (h.symm.trans hwritten)) (hencode a)

end Found

end Json

end SqlQuery
