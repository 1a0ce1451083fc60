import SqlQuery.Config
import SqlQuery.Proofs.Lexical.Blanks
import SqlQuery.Proofs.Lexical.Digits

/-!
# The version in a text

A banner tells its version between the earliest build tag and the next space, as three numbers with dots; a text that
a person wrote is read in the same way, without the blanks around it.

* `Numeral`, `EngineVersion.Leads` — digits that spell a number, and a text that a version leads;
* `IsBuildTag`, `Untagged`, `AfterFirstTag`, `IsSegment` — which part of a banner is read;
* `EngineVersion.triple?_eq_some_iff`, `EngineVersion.isSegment_iff` — the two steps of reading;
* `EngineVersion.ofBanner_reads` — **the version of a banner**;
* `Config.readVersion_reads` — **the version of a written text**, which is that of the text as a banner.
-/

namespace SqlQuery

open SqlQuery.Number SqlQuery.Text

/-! ### Numbers with dots -/

/-- Digits that spell a number of 32 bits, zeros in front allowed. -/
structure Numeral (ds : List Char) (n : UInt32) : Prop where
  ne_nil : ds ≠ []
  isDigit : ∀ c ∈ ds, c.isDigit = true
  value : natOf 10 ds = n.toNat

theorem numeral_digits (n : UInt32) : Numeral (digits n.toNat) n where
  ne_nil := Nat.toDigits_ne_nil
  isDigit _ := isDigit_of_mem_digits
  value := natOf_digits n.toNat

namespace EngineVersion

/-- The text is the version, its three numbers with dots between them, and `rest`, which no digit begins. -/
def Leads (v : EngineVersion) (s rest : List Char) : Prop :=
  ∃ major minor patch, Numeral major v.major ∧ Numeral minor v.minor ∧ Numeral patch v.patch ∧
    s = major ++ '.' :: (minor ++ '.' :: (patch ++ rest)) ∧ ∀ c ∈ rest.head?, c.isDigit = false

theorem leads_text (v : EngineVersion) {rest : List Char} (h : ∀ c ∈ rest.head?, c.isDigit = false) :
    v.Leads (v.text ++ rest) rest := by
  refine ⟨_, _, _, numeral_digits v.major, numeral_digits v.minor, numeral_digits v.patch, ?_, h⟩
  simp only [text, List.append_assoc, List.cons_append]

theorem leads_text_nil (v : EngineVersion) : v.Leads v.text [] := by
  have h : v.Leads (v.text ++ []) [] := v.leads_text nofun
  rwa [List.append_nil] at h

theorem Leads.mem {v : EngineVersion} {s : List Char} (h : v.Leads s []) {c : Char} (hc : c ∈ s) :
    c.isDigit = true ∨ c = '.' := by
  obtain ⟨major, minor, patch, hmajor, hminor, hpatch, rfl, -⟩ := h
  simp only [List.append_nil, List.mem_append, List.mem_cons] at hc
  obtain hc | rfl | hc | rfl | hc := hc
  · exact .inl (hmajor.isDigit c hc)
  · exact .inr rfl
  · exact .inl (hminor.isDigit c hc)
  · exact .inr rfl
  · exact .inl (hpatch.isDigit c hc)

theorem mem_text (v : EngineVersion) {c : Char} (hc : c ∈ v.text) : c.isDigit = true ∨ c = '.' :=
  v.leads_text_nil.mem hc

/-- A number is read to the last of its digits, if it has 32 bits. -/
theorem number?_eq_some_iff {s rest : List Char} {n : UInt32} : number? s = some (n, rest) ↔
    ∃ ds, Numeral ds n ∧ s = ds ++ rest ∧ ∀ c ∈ rest.head?, c.isDigit = false := by
  unfold number?
  constructor
  · intro h
    obtain ⟨ds, after, hspan⟩ : ∃ ds after, spanDigits s = (ds, after) := ⟨_, _, rfl⟩
    obtain ⟨hs, hds, hafter⟩ := spanDigits_eq_iff.1 hspan
    rw [hspan] at h
    dsimp only at h
    by_cases hd : ds ≠ [] ∧ natOf 10 ds < UInt32.size
    · rw [if_pos hd] at h
      obtain ⟨rfl, rfl⟩ := Prod.mk.inj (Option.some.inj h)
      exact ⟨ds, ⟨hd.1, hds, (UInt32.toNat_ofNat_of_lt hd.2).symm⟩, hs, hafter⟩
    · rw [if_neg hd] at h
      cases h
  · rintro ⟨ds, hds, hs, hrest⟩
    have hspan : spanDigits s = (ds, rest) := spanDigits_eq_iff.2 ⟨hs, hds.isDigit, hrest⟩
    have hsize : natOf 10 ds < UInt32.size := by
      rw [hds.value]
      exact n.toNat_lt_size
    rw [hspan]
    dsimp only
    rw [if_pos ⟨hds.ne_nil, hsize⟩, hds.value, UInt32.ofNat_toNat]

theorem dot?_eq_some_iff {s rest : List Char} : dot? s = some rest ↔ s = '.' :: rest := by
  unfold dot?
  split
  · simp
  · next hs =>
    refine ⟨nofun, fun h => ?_⟩
    exact absurd h (hs rest)

/-- **Three numbers with dots** are read where they are, and nowhere else. -/
theorem triple?_eq_some_iff {s rest : List Char} {v : EngineVersion} :
    triple? s = some (v, rest) ↔ v.Leads s rest := by
  have hdot : ∀ cs : List Char, ∀ c ∈ ('.' :: cs).head?, c.isDigit = false := by
    rintro cs c ⟨⟩
    rfl
  unfold triple?
  constructor
  · intro h
    obtain ⟨⟨major, s₁⟩, hmajor, h⟩ := Option.bind_eq_some_iff.1 h
    obtain ⟨s₂, hs₂, h⟩ := Option.bind_eq_some_iff.1 h
    obtain ⟨⟨minor, s₃⟩, hminor, h⟩ := Option.bind_eq_some_iff.1 h
    obtain ⟨s₄, hs₄, h⟩ := Option.bind_eq_some_iff.1 h
    obtain ⟨⟨patch, s₅⟩, hpatch, h⟩ := Option.bind_eq_some_iff.1 h
    obtain ⟨rfl, rfl⟩ := Prod.mk.inj (Option.some.inj h)
    obtain ⟨a, ha, rfl, -⟩ := number?_eq_some_iff.1 hmajor
    obtain rfl := dot?_eq_some_iff.1 hs₂
    obtain ⟨b, hb, rfl, -⟩ := number?_eq_some_iff.1 hminor
    obtain rfl := dot?_eq_some_iff.1 hs₄
    obtain ⟨c, hc, rfl, hrest⟩ := number?_eq_some_iff.1 hpatch
    exact ⟨a, b, c, ha, hb, hc, rfl, hrest⟩
  · rintro ⟨a, b, c, ha, hb, hc, rfl, hrest⟩
    have hmajor := number?_eq_some_iff.2 ⟨a, ha, rfl, hdot (b ++ '.' :: (c ++ rest))⟩
    have hminor := number?_eq_some_iff.2 ⟨b, hb, rfl, hdot (c ++ rest)⟩
    have hpatch := number?_eq_some_iff.2 ⟨c, hc, rfl, hrest⟩
    simp only [hmajor, hminor, hpatch, dot?, Option.bind_eq_bind, Option.bind_some, Option.pure_def]

end EngineVersion

/-! ### The part that is read -/

/-- The tags in front of the number: of a build for Linux and of one for Windows. -/
def IsBuildTag (t : List Char) : Prop := t = "LI-V".toList ∨ t = "WI-V".toList

/-- No build tag anywhere in the text. -/
def Untagged (s : List Char) : Prop := ∀ before tag after, IsBuildTag tag → s ≠ before ++ tag ++ after

/-- What stands after the build tag that begins before all others. -/
def AfterFirstTag (s after : List Char) : Prop :=
  ∃ before tag, IsBuildTag tag ∧ s = before ++ tag ++ after ∧
    ∀ before' tag' after', IsBuildTag tag' → s = before' ++ tag' ++ after' → before.length ≤ before'.length

/-- The part of a banner that is read: from the earliest build tag on, or from the start if there is none, and up to
the next space. -/
def IsSegment (s seg : List Char) : Prop :=
  ∃ from' rest, (AfterFirstTag s from' ∨ Untagged s ∧ from' = s) ∧ from' = seg ++ rest ∧ ' ' ∉ seg ∧
    ∀ c ∈ rest.head?, c = ' '

theorem IsBuildTag.length_eq {t : List Char} (h : IsBuildTag t) : t.length = 4 := by
  rcases h with rfl | rfl <;> rfl

theorem IsBuildTag.ne_nil {t : List Char} (h : IsBuildTag t) : t ≠ [] := by
  rcases h with rfl | rfl <;> decide

/-- A text without tags gets none where a tag is put behind it: a tag has its first letter at its start only. -/
theorem Untagged.length_le {before tag after : List Char} (h : Untagged before) (htag : IsBuildTag tag)
    {before' tag' after' : List Char} (htag' : IsBuildTag tag')
    (hs : before ++ tag ++ after = before' ++ tag' ++ after') : before.length ≤ before'.length := by
  rw [List.append_assoc, List.append_assoc] at hs
  obtain ⟨q, rfl, -⟩ | ⟨q, rfl, hq⟩ := List.append_eq_append_iff.1 hs
  · simp
  · -- `q` is what the second tag would share with the text in front of the first
    match q with
    | [] => simp
    | [_] | [_, _] | [_, _, _] =>
      rcases htag with rfl | rfl <;> rcases htag' with rfl | rfl <;> simp at hq
    | a :: b :: c :: d :: q =>
      obtain ⟨rfl, -⟩ : tag' = [a, b, c, d] ∧ _ := List.append_inj hq (by simpa using htag'.length_eq)
      exact absurd (List.append_assoc before' [a, b, c, d] q).symm (h before' _ q htag')

namespace EngineVersion

theorem mem_buildTags_iff {t : List Char} : t ∈ buildTags ↔ IsBuildTag t := by
  simp only [buildTags, List.mem_cons, List.not_mem_nil, or_false, IsBuildTag]

/-- A tag at the start of the text, if there is one. -/
theorem find?_buildTags_eq_some {s tag : List Char} (h : buildTags.find? (·.isPrefixOf s) = some tag) :
    IsBuildTag tag ∧ ∃ after, s = tag ++ after := by
  have hprefix : tag.isPrefixOf s = true := List.find?_some (p := fun t : List Char => t.isPrefixOf s) h
  obtain ⟨after, hafter⟩ := List.isPrefixOf_iff_prefix.1 hprefix
  exact ⟨mem_buildTags_iff.1 (List.mem_of_find?_eq_some h), after, hafter.symm⟩

theorem find?_buildTags_eq_none_iff {s : List Char} :
    buildTags.find? (·.isPrefixOf s) = none ↔ ∀ tag after, IsBuildTag tag → s ≠ tag ++ after := by
  rw [List.find?_eq_none]
  constructor
  · rintro h tag after htag rfl
    exact h tag (mem_buildTags_iff.2 htag) (List.isPrefixOf_iff_prefix.2 (List.prefix_append tag after))
  · intro h tag htag hprefix
    obtain ⟨after, hafter⟩ := List.isPrefixOf_iff_prefix.1 hprefix
    exact h tag after (mem_buildTags_iff.1 htag) hafter.symm

theorem afterTag?_eq_none_iff {s : List Char} : afterTag? s = none ↔ Untagged s := by
  induction s with
  | nil =>
    refine ⟨fun _ before tag after htag h => ?_, fun _ => rfl⟩
    exact htag.ne_nil (List.append_eq_nil_iff.1 (List.append_eq_nil_iff.1 h.symm).1).2
  | cons c cs ih =>
    rw [afterTag?]
    cases hfind : buildTags.find? (·.isPrefixOf (c :: cs)) with
    | some tag =>
      refine ⟨nofun, fun h => ?_⟩
      obtain ⟨htag, after, hs⟩ := find?_buildTags_eq_some hfind
      exact absurd hs (h [] tag after htag)
    | none =>
      have hstart := find?_buildTags_eq_none_iff.1 hfind
      dsimp only
      rw [ih]
      constructor
      · intro h before tag after htag hs
        cases before with
        | nil => exact hstart tag after htag hs
        | cons d before => exact h before tag after htag (List.cons.inj hs).2
      · intro h before tag after htag hs
        exact h (c :: before) tag after htag (congrArg (c :: ·) hs)

/-- **The earliest tag.** -/
theorem afterTag?_eq_some_iff {s after : List Char} : afterTag? s = some after ↔ AfterFirstTag s after := by
  induction s with
  | nil =>
    refine ⟨nofun, ?_⟩
    rintro ⟨before, tag, htag, h, -⟩
    exact absurd (List.append_eq_nil_iff.1 (List.append_eq_nil_iff.1 h.symm).1).2 htag.ne_nil
  | cons c cs ih =>
    rw [afterTag?]
    cases hfind : buildTags.find? (·.isPrefixOf (c :: cs)) with
    | some tag =>
      obtain ⟨htag, rest, hrest⟩ := find?_buildTags_eq_some hfind
      dsimp only
      constructor
      · rintro ⟨⟩
        refine ⟨[], tag, htag, ?_, fun _ _ _ _ _ => Nat.zero_le _⟩
        rw [hrest, List.drop_left, List.nil_append]
      · rintro ⟨before, tag', htag', hs, hfirst⟩
        obtain rfl : before = [] := List.length_eq_zero_iff.1 (Nat.le_zero.1 (hfirst [] tag rest htag hrest))
        -- the two tags at the start are equally long
        rw [hs, List.nil_append, htag.length_eq, ← htag'.length_eq, List.drop_left]
    | none =>
      have hstart := find?_buildTags_eq_none_iff.1 hfind
      dsimp only
      rw [ih]
      constructor
      · rintro ⟨before, tag, htag, rfl, hfirst⟩
        refine ⟨c :: before, tag, htag, rfl, fun before' tag' after' htag' hs => ?_⟩
        cases before' with
        | nil => exact absurd hs (hstart tag' after' htag')
        | cons d before' => exact Nat.succ_le_succ (hfirst before' tag' after' htag' (List.cons.inj hs).2)
      · rintro ⟨before, tag, htag, hs, hfirst⟩
        cases before with
        | nil => exact absurd hs (hstart tag after htag)
        | cons d before =>
          obtain ⟨rfl, hcs⟩ := List.cons.inj hs
          refine ⟨before, tag, htag, hcs, fun before' tag' after' htag' hs' => ?_⟩
          exact Nat.le_of_succ_le_succ (hfirst (c :: before') tag' after' htag' (congrArg (c :: ·) hs'))

/-- What is cut off at the first space. -/
theorem takeWhile_ne_space_eq_iff {s seg : List Char} : s.takeWhile (· ≠ ' ') = seg ↔
    ∃ rest, s = seg ++ rest ∧ ' ' ∉ seg ∧ ∀ c ∈ rest.head?, c = ' ' := by
  constructor
  · rintro rfl
    refine ⟨s.dropWhile (· ≠ ' '), List.takeWhile_append_dropWhile.symm, fun h => ?_, fun c hc => ?_⟩
    · simpa using List.mem_takeWhile_imp h
    · have hnot := List.head?_dropWhile_not (fun c : Char => decide (c ≠ ' ')) s
      rw [hc] at hnot
      simpa using hnot
  · rintro ⟨rest, rfl, hseg, hrest⟩
    have hall : ∀ c ∈ seg, decide (c ≠ ' ') = true := by
      intro c hc
      exact decide_eq_true fun h => hseg (h ▸ hc)
    rw [List.takeWhile_append_of_pos hall]
    cases rest with
    | nil => simp
    | cons c cs => simp [hrest c rfl]

/-- **The part that is read** is one part of the text. -/
theorem isSegment_iff {s seg : List Char} : IsSegment s seg ↔ seg = segment s := by
  have hfrom : ∀ from', (AfterFirstTag s from' ∨ Untagged s ∧ from' = s) ↔ from' = (afterTag? s).getD s := by
    intro from'
    rw [← afterTag?_eq_some_iff, ← afterTag?_eq_none_iff]
    cases afterTag? s <;> simp [eq_comm]
  unfold IsSegment segment
  constructor
  · rintro ⟨from', rest, hstart, hcut⟩
    rw [← (hfrom from').1 hstart, takeWhile_ne_space_eq_iff.2 ⟨rest, hcut⟩]
  · intro h
    obtain ⟨rest, hcut⟩ := takeWhile_ne_space_eq_iff.1 h.symm
    exact ⟨_, rest, (hfrom _).2 rfl, hcut⟩

/-- A tag behind a text without tags is the earliest, and the part that is read begins after it. -/
theorem isSegment_of_untagged {before tag seg rest : List Char} (hbefore : Untagged before) (htag : IsBuildTag tag)
    (hseg : ' ' ∉ seg) (hrest : ∀ c ∈ rest.head?, c = ' ') : IsSegment (before ++ tag ++ (seg ++ rest)) seg := by
  refine ⟨seg ++ rest, rest, .inl ⟨before, tag, htag, rfl, ?_⟩, rfl, hseg, hrest⟩
  intro before' tag' after' htag' hs
  exact hbefore.length_le htag htag' hs

/-! ### Banners -/

theorem ofBanner?_eq_some_iff {s : String} {v : EngineVersion} :
    ofBanner? s = some v ↔ ∃ rest, v.Leads (segment s.toList) rest := by
  rw [ofBanner?, Option.map_eq_some_iff]
  constructor
  · rintro ⟨⟨w, rest⟩, h, rfl⟩
    exact ⟨rest, triple?_eq_some_iff.1 h⟩
  · rintro ⟨rest, h⟩
    exact ⟨(v, rest), triple?_eq_some_iff.2 h, rfl⟩

theorem ofBanner_eq_ok_iff {s : String} {v : EngineVersion} : ofBanner s = .ok v ↔ ofBanner? s = some v := by
  unfold ofBanner
  cases ofBanner? s <;> simp

theorem ofBanner_eq_error_iff {s : String} {e : Error} :
    ofBanner s = .error e ↔ ofBanner? s = none ∧ e = .versionUnparseable s := by
  unfold ofBanner
  cases ofBanner? s <;> simp [eq_comm]

/-- **The version of a banner.**  One part of a banner is read, from the earliest build tag to the next space, and the
banner tells the version that leads this part; where none does, the failure shows the banner as it came.  So a version
is read back behind a tag, whatever stands before without a tag and whatever follows that is not another digit. -/
theorem ofBanner_reads :
    (∀ s : String, ∃ seg, (∀ t, IsSegment s.toList t ↔ t = seg) ∧
      (∀ v, ofBanner s = .ok v ↔ ∃ rest, v.Leads seg rest) ∧
      ∀ e, ofBanner s = .error e ↔ (∀ (v : EngineVersion) rest, ¬ v.Leads seg rest) ∧ e = .versionUnparseable s) ∧
    ∀ (before tag rest : List Char) (v : EngineVersion), Untagged before → IsBuildTag tag →
      (∀ c ∈ rest.head?, c.isDigit = false) → ofBanner (String.ofList (before ++ tag ++ v.text ++ rest)) = .ok v := by
  constructor
  · intro s
    refine ⟨segment s.toList, fun t => isSegment_iff, fun v => ?_, fun e => ?_⟩
    · rw [ofBanner_eq_ok_iff, ofBanner?_eq_some_iff]
    · have hnone : ofBanner? s = none ↔ ∀ (v : EngineVersion) rest, ¬ v.Leads (segment s.toList) rest := by
        simp only [Option.eq_none_iff_forall_ne_some, ne_eq, ofBanner?_eq_some_iff, not_exists]
      rw [ofBanner_eq_error_iff, hnone]
  · intro before tag rest v hbefore htag hrest
    obtain ⟨cut, hcut, hread, hspace⟩ := takeWhile_ne_space_eq_iff.1 (rfl : rest.takeWhile (· ≠ ' ') = _)
    generalize rest.takeWhile (· ≠ ' ') = read at hcut hread
    subst hcut
    have hsolid : ' ' ∉ v.text ++ read := by
      intro hmem
      obtain hmem | hmem := List.mem_append.1 hmem
      · obtain h | h := v.mem_text hmem <;> exact absurd h (by decide)
      · exact hread hmem
    have hsegment := isSegment_of_untagged hbefore htag hsolid hspace
    have hleads : v.Leads (v.text ++ read) read := by
      refine v.leads_text fun c hc => hrest c ?_
      cases read with
      | nil => cases hc
      | cons d read => exact hc
    rw [ofBanner_eq_ok_iff, ofBanner?_eq_some_iff, String.toList_ofList, List.append_assoc _ v.text,
      ← List.append_assoc v.text, ← isSegment_iff.1 hsegment]
    exact ⟨read, hleads⟩

theorem ofBanner_reads_laterTag : Untagged "build 9.9.9 LI-".toList ∧ IsBuildTag "WI-V".toList ∧
    (∀ c ∈ ".2692 LI-V2.5.9".toList.head?, c.isDigit = false) ∧
    ofBanner "build 9.9.9 LI-WI-V4.0.1.2692 LI-V2.5.9" = .ok ⟨4, 0, 1⟩ := by
  have hbefore : Untagged "build 9.9.9 LI-".toList := afterTag?_eq_none_iff.1 (by decide)
  have htag : IsBuildTag "WI-V".toList := .inr rfl
  have hrest : ∀ c ∈ ".2692 LI-V2.5.9".toList.head?, c.isDigit = false := by
    rintro c ⟨⟩
    rfl
  have hread := ofBanner_reads.2 _ _ _ ⟨4, 0, 1⟩ hbefore htag hrest
  have htext : "build 9.9.9 LI-".toList ++ "WI-V".toList ++ text ⟨4, 0, 1⟩ ++ ".2692 LI-V2.5.9".toList =
      "build 9.9.9 LI-WI-V4.0.1.2692 LI-V2.5.9".toList := by decide
  rw [htext, String.ofList_toList] at hread
  exact ⟨hbefore, htag, hrest, hread⟩

/-! ### Written texts -/

/-- In a text that is a version from its start to its end there is no tag and no space, so all of it is read. -/
theorem Leads.segment_eq {v : EngineVersion} {s : List Char} (h : v.Leads s []) : segment s = s := by
  symm
  rw [← isSegment_iff]
  refine ⟨s, [], .inr ⟨fun before tag after htag hs => ?_, rfl⟩, (List.append_nil s).symm, fun hspace => ?_, nofun⟩
  · have hletter : 'V' ∈ s := by
      rw [hs]
      rcases htag with rfl | rfl <;> simp
    obtain h | h := h.mem hletter <;> exact absurd h (by decide)
  · obtain h | h := h.mem hspace <;> exact absurd h (by decide)

/-- The bare number is read as a banner would be. -/
theorem ofText?_eq (s : String) : ofText? s = ofBanner? (trimmed s) := by
  unfold ofText?
  dsimp only
  split
  · next v h =>
    have hleads := triple?_eq_some_iff.1 h
    symm
    rw [ofBanner?_eq_some_iff, hleads.segment_eq]
    exact ⟨[], hleads⟩
  · rfl

end EngineVersion

namespace Config

theorem readVersion_eq (s : String) : readVersion s = EngineVersion.ofBanner (trimmed s) := by
  have h := EngineVersion.ofText?_eq s
  unfold readVersion EngineVersion.ofBanner
  cases hbanner : EngineVersion.ofBanner? (trimmed s) <;> simp only [h, hbanner]

/-- **The version of a written text** is that of the text without the blanks around it, read as a banner, and so is the
failure with the text that it shows.  A version is read back between any blanks. -/
theorem readVersion_reads :
    (∀ s : String, Trims s.toList (trimmed s).toList ∧ readVersion s = EngineVersion.ofBanner (trimmed s)) ∧
    ∀ (before after : List Char) (v : EngineVersion), (∀ c ∈ before, isBlank c = true) →
      (∀ c ∈ after, isBlank c = true) → readVersion (String.ofList (before ++ v.text ++ after)) = .ok v := by
  constructor
  · intro s
    refine ⟨?_, readVersion_eq s⟩
    rw [trimmed, String.toList_ofList]
    exact trims_trim s.toList
  · intro before after v hbefore hafter
    have hblank : ∀ c ∈ v.text, isBlank c = false := by
      intro c hc
      obtain h | rfl := v.mem_text hc
      · exact isBlank_of_isDigit h
      · rfl
    have htrims : Trims (before ++ v.text ++ after) v.text :=
      ⟨⟨before, after, rfl, hbefore, hafter⟩, fun c hc => hblank c (List.mem_of_mem_head? hc),
        fun c hc => hblank c (List.mem_of_mem_getLast? hc)⟩
    rw [readVersion_eq, EngineVersion.ofBanner_eq_ok_iff, EngineVersion.ofBanner?_eq_some_iff, trimmed,
      String.toList_ofList, String.toList_ofList, ← trims_iff.1 htrims, v.leads_text_nil.segment_eq]
    exact ⟨[], v.leads_text_nil⟩

theorem readVersion_reads_wide : (∀ c ∈ "\u3000\t".toList, isBlank c = true) ∧
    (∀ c ∈ "\u2028 ".toList, isBlank c = true) ∧ readVersion "\u3000\t3.0.10\u2028 " = .ok ⟨3, 0, 10⟩ := by
  have hbefore : ∀ c ∈ "\u3000\t".toList, isBlank c = true := List.all_eq_true.1 (by decide)
  have hafter : ∀ c ∈ "\u2028 ".toList, isBlank c = true := List.all_eq_true.1 (by decide)
  have hread := readVersion_reads.2 _ _ ⟨3, 0, 10⟩ hbefore hafter
  have htext : "\u3000\t".toList ++ EngineVersion.text ⟨3, 0, 10⟩ ++ "\u2028 ".toList =
      "\u3000\t3.0.10\u2028 ".toList := by decide
  rw [htext, String.ofList_toList] at hread
  exact ⟨hbefore, hafter, hread⟩

end Config

end SqlQuery
