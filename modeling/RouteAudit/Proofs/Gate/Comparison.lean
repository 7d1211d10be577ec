import RouteAudit.Proofs.Gate.Verdict

/-! # What a comparison says, and what it says the other way round

The lists of a comparison are told by what is in them and by where their patterns first occur: each
has the patterns with a property of both snapshots, once, in the order of their first occurrences
(`FirstOccurrences`), and only the first entry of a pattern decides its level (`FirstLevel`). None
of these properties has a direction of its own, so a comparison taken the other way round says the
same with the roles exchanged (`comparison_both_ways`).
-/

namespace RouteAudit.Gate

open Risk (Level Summary)

/-- A list has exactly the texts of another one that have a property, each once, in the order in
which they first occur there. -/
structure FirstOccurrences (texts : List String) (property : String → Prop)
    (found : List String) : Prop where
  mem : ∀ text, text ∈ found ↔ text ∈ texts ∧ property text
  ordered : found.Pairwise fun first second => texts.idxOf first < texts.idxOf second

section

variable {texts : List String}

theorem idxOf_cons_lt {head first second : String} (hfirst : first ≠ head) (hsecond : second ≠ head)
    (hlt : texts.idxOf first < texts.idxOf second) :
    (head :: texts).idxOf first < (head :: texts).idxOf second := by
  rw [List.idxOf_cons_ne texts hfirst.symm, List.idxOf_cons_ne texts hsecond.symm]
  exact Nat.succ_lt_succ hlt

/-- The distinct texts that pass a test stand in the order of their first occurrences. -/
theorem eraseDups_filter_ordered (texts : List String) (test : String → Bool) :
    (texts.filter test).eraseDups.Pairwise fun first second =>
      texts.idxOf first < texts.idxOf second := by
  induction texts generalizing test with
  | nil => exact List.Pairwise.nil
  | cons head texts ih =>
      -- Behind the head are only other texts, and these stand one place later than in the rest.
      have hbehind (narrowed : String → Bool) (hother : ∀ text, narrowed text → text ≠ head) :
          (texts.filter narrowed).eraseDups.Pairwise fun first second =>
            (head :: texts).idxOf first < (head :: texts).idxOf second := by
        refine (ih narrowed).imp_of_mem fun {first second} hfirst hsecond hlt => ?_
        rw [List.mem_eraseDups, List.mem_filter] at hfirst hsecond
        exact idxOf_cons_lt (hother _ hfirst.2) (hother _ hsecond.2) hlt
      by_cases hhead : test head
      · rw [List.filter_cons_of_pos hhead, List.eraseDups_cons, List.filter_filter,
          List.pairwise_cons]
        refine ⟨?_, hbehind _ ?_⟩
        · intro second hsecond
          have hne : second ≠ head := by
            rw [List.mem_eraseDups, List.mem_filter, Bool.and_eq_true] at hsecond
            simpa using hsecond.2.1
          rw [List.idxOf_cons_self, List.idxOf_cons_ne texts hne.symm]
          exact Nat.succ_pos _
        · intro text htext
          simpa using (Bool.and_eq_true_iff.mp htext).1
      · rw [List.filter_cons_of_neg hhead]
        exact hbehind test fun text htext heq => hhead (heq ▸ htext)

theorem firstOccurrences_newIn (texts known : List String) :
    FirstOccurrences texts (· ∉ known) (newIn texts known) where
  mem text := by simp [newIn]
  ordered := eraseDups_filter_ordered texts _

theorem newIn_self (texts : List String) : newIn texts texts = [] := by
  rw [List.eq_nil_iff_forall_not_mem]
  intro text hmem
  obtain ⟨hin, hout⟩ := ((firstOccurrences_newIn texts texts).mem text).mp hmem
  exact hout hin

end

/-! ## Levels -/

/-- The first entry of a pattern has a level. -/
def FirstLevel (snapshot : Snapshot) (pattern : String) (level : Level) : Prop :=
  ∃ earlier entry later, snapshot.patterns = earlier ++ entry :: later ∧
    (∀ other ∈ earlier, other.pattern ≠ pattern) ∧ entry.pattern = pattern ∧ entry.level = level

/-- The first levels of a pattern in a baseline and now are two different ones. -/
def LevelMoved (current baseline : Snapshot) (pattern : String) (before now : Level) : Prop :=
  FirstLevel baseline pattern before ∧ FirstLevel current pattern now ∧ before ≠ now

/-- The change from now to before. -/
def RiskChange.reversed (change : RiskChange) : RiskChange :=
  ⟨change.pattern, change.now, change.before⟩

section

variable {snapshot current baseline : Snapshot} {pattern : String} {level before now : Level}
  {change : RiskChange}

theorem firstLevel_iff : FirstLevel snapshot pattern level ↔
    ∃ entry, snapshot.find? pattern = some entry ∧ entry.level = level := by
  simp only [FirstLevel, Snapshot.find?, List.find?_eq_some_iff_append, beq_iff_eq]
  constructor
  · rintro ⟨earlier, entry, later, hsplit, hearlier, hpattern, hlevel⟩
    exact ⟨entry, ⟨hpattern, earlier, later, hsplit, by simpa using hearlier⟩, hlevel⟩
  · rintro ⟨entry, ⟨hpattern, earlier, later, hsplit, hearlier⟩, hlevel⟩
    exact ⟨earlier, entry, later, hsplit, by simpa using hearlier, hpattern, hlevel⟩

theorem FirstLevel.mem_names (h : FirstLevel snapshot pattern level) :
    pattern ∈ snapshot.names := by
  obtain ⟨earlier, entry, later, hsplit, -, rfl, -⟩ := h
  refine List.mem_map_of_mem ?_
  rw [hsplit]
  exact List.mem_append_right _ List.mem_cons_self

theorem FirstLevel.unique {other : Level} (h : FirstLevel snapshot pattern level)
    (hother : FirstLevel snapshot pattern other) : level = other := by
  obtain ⟨entry, hentry, rfl⟩ := firstLevel_iff.mp h
  obtain ⟨again, hagain, rfl⟩ := firstLevel_iff.mp hother
  rw [Option.some.inj (hentry.symm.trans hagain)]

theorem changeOf?_eq_some : changeOf? current baseline pattern = some change ↔
    change.pattern = pattern ∧ LevelMoved current baseline pattern change.before change.now := by
  obtain ⟨other, before, now⟩ := change
  simp only [LevelMoved, firstLevel_iff, changeOf?, Option.bind_eq_bind, Option.bind_eq_some_iff]
  constructor
  · rintro ⟨entry, hentry, old, hold, hmoved⟩
    split at hmoved
    next => cases hmoved
    next hne =>
      cases hmoved
      exact ⟨rfl, ⟨old, hold, rfl⟩, ⟨entry, hentry, rfl⟩, hne⟩
  · rintro ⟨rfl, ⟨old, hold, rfl⟩, ⟨entry, hentry, rfl⟩, hne⟩
    exact ⟨entry, hentry, old, hold, if_neg hne⟩

theorem mem_changes : change ∈ (compare current baseline).changes ↔
    LevelMoved current baseline change.pattern change.before change.now := by
  simp only [compare, List.mem_filterMap, List.mem_eraseDups, changeOf?_eq_some]
  constructor
  · rintro ⟨pattern, -, rfl, hmoved⟩
    exact hmoved
  · intro hmoved
    exact ⟨_, hmoved.2.1.mem_names, rfl, hmoved⟩

/-- A change tells of the pattern that it was looked for. -/
theorem map_pattern_filterMap (patterns : List String) :
    (patterns.filterMap (changeOf? current baseline)).map (·.pattern) =
      patterns.filter fun pattern => (changeOf? current baseline pattern).isSome := by
  induction patterns with
  | nil => rfl
  | cons pattern patterns ih =>
      cases hchange : changeOf? current baseline pattern with
      | none => simp [hchange, ih]
      | some change =>
          have hpattern := (changeOf?_eq_some.mp hchange).1
          simp [hchange, ih, hpattern]

theorem firstOccurrences_changes (current baseline : Snapshot) :
    FirstOccurrences current.names
      (fun pattern => ∃ before now, LevelMoved current baseline pattern before now)
      ((compare current baseline).changes.map (·.pattern)) where
  mem pattern := by
    simp only [List.mem_map, mem_changes]
    constructor
    · rintro ⟨change, hmoved, rfl⟩
      exact ⟨hmoved.2.1.mem_names, _, _, hmoved⟩
    · rintro ⟨-, before, now, hmoved⟩
      exact ⟨⟨pattern, before, now⟩, hmoved, rfl⟩
  ordered := by
    have hall := eraseDups_filter_ordered current.names fun _ => true
    rw [List.filter_true] at hall
    have hchanges : (compare current baseline).changes.map (·.pattern) =
        current.names.eraseDups.filter fun pattern =>
          (changeOf? current baseline pattern).isSome := map_pattern_filterMap _
    rw [hchanges]
    exact hall.filter _

theorem levelMoved_swap : LevelMoved current baseline pattern before now ↔
    LevelMoved baseline current pattern now before :=
  ⟨fun ⟨hbefore, hnow, hne⟩ => ⟨hnow, hbefore, hne.symm⟩,
    fun ⟨hnow, hbefore, hne⟩ => ⟨hbefore, hnow, hne.symm⟩⟩

/-- Where the patterns are the same, no level has moved. -/
theorem not_levelMoved (hpatterns : current.patterns = baseline.patterns) :
    ¬ LevelMoved current baseline pattern before now := by
  rintro ⟨hbefore, hnow, hne⟩
  have hthere : FirstLevel current pattern before := by
    rw [FirstLevel, hpatterns]
    exact hbefore
  exact hne (hthere.unique hnow)

end

/-! ## Counts -/

/-- How the count of a level moved. -/
def Drift.count (drift : Drift) : Level → Int64
  | .low => drift.low
  | .medium => drift.medium
  | .high => drift.high

theorem Drift.count_between (now before : Summary) (level : Level) :
    (between now before).count level = ofCounts (now.count level) (before.count level) := by
  cases level <;> rfl

theorem toInt_toInt64 {n : UInt64} (h : n.toNat < 2 ^ 63) : n.toInt64.toInt = n.toNat := by
  refine BitVec.toInt_eq_toNat_of_lt ?_
  rw [UInt64.toBitVec_toInt64, UInt64.toNat_toBitVec]
  omega

/-- Counts that fit into 63 bits leave room for the sign of their difference. -/
theorem Drift.toInt_ofCounts {now before : UInt64} (hnow : now.toNat < 2 ^ 63)
    (hbefore : before.toNat < 2 ^ 63) :
    (ofCounts now before).toInt = (now.toNat : Int) - before.toNat := by
  rw [ofCounts, Int64.toInt_sub, toInt_toInt64 hnow, toInt_toInt64 hbefore]
  refine Int.bmod_eq_of_le ?_ ?_ <;> omega

theorem Drift.isZero_between_self (summary : Summary) : (between summary summary).isZero := by
  simp [isZero, between, ofCounts]

/-! ## Main result -/

/-- New, removed and changed patterns are exactly those that one snapshot has and the other has not,
and those whose first levels differ, each once and in the order of their first occurrences. Taken
the other way round the comparison matches just as well, what was new is removed, every change goes
back, and the drift, which is the exact difference of all counts below 2^63, has the other sign.
Snapshots that match leave nothing to tell. -/
theorem comparison_both_ways (current baseline : Snapshot) :
    let forth := compare current baseline
    let back := compare baseline current
    FirstOccurrences current.names (· ∉ baseline.names) forth.new ∧
      FirstOccurrences baseline.names (· ∉ current.names) forth.removed ∧
      FirstOccurrences current.names
        (fun pattern => ∃ before now, LevelMoved current baseline pattern before now)
        (forth.changes.map (·.pattern)) ∧
      (∀ change ∈ forth.changes,
        LevelMoved current baseline change.pattern change.before change.now) ∧
      back.isMatch = forth.isMatch ∧ back.new = forth.removed ∧ back.removed = forth.new ∧
      (∀ change, change ∈ back.changes ↔ change.reversed ∈ forth.changes) ∧
      ((∀ level, (current.summary.count level).toNat < 2 ^ 63 ∧
          (baseline.summary.count level).toNat < 2 ^ 63) →
        ∀ level,
          (forth.drift.count level).toInt =
              ((current.summary.count level).toNat : Int) - (baseline.summary.count level).toNat ∧
            (back.drift.count level).toInt = -(forth.drift.count level).toInt) ∧
      (forth.isMatch →
        forth.new = [] ∧ forth.removed = [] ∧ forth.changes = [] ∧ forth.drift.isZero) := by
  intro forth back
  refine ⟨firstOccurrences_newIn _ _, firstOccurrences_newIn _ _,
    firstOccurrences_changes current baseline, fun _ => mem_changes.mp, ?_, rfl, rfl, ?_, ?_, ?_⟩
  · rw [Bool.eq_iff_iff, compare_isMatch_iff, compare_isMatch_iff]
    exact and_congr eq_comm eq_comm
  · intro change
    rw [mem_changes, mem_changes]
    exact levelMoved_swap
  · intro hfits level
    obtain ⟨hcurrent, hbaseline⟩ := hfits level
    have hforth : (forth.drift.count level).toInt = _ :=
      (congrArg Int64.toInt (Drift.count_between _ _ level)).trans
        (Drift.toInt_ofCounts hcurrent hbaseline)
    have hback : (back.drift.count level).toInt = _ :=
      (congrArg Int64.toInt (Drift.count_between _ _ level)).trans
        (Drift.toInt_ofCounts hbaseline hcurrent)
    refine ⟨hforth, ?_⟩
    rw [hforth, hback, Int.neg_sub]
  · intro hmatch
    obtain ⟨hpatterns, hsummary⟩ := compare_isMatch_iff.mp hmatch
    have hnames : current.names = baseline.names :=
      congrArg (List.map BaselinePattern.pattern) hpatterns
    refine ⟨?_, ?_, ?_, ?_⟩
    · show newIn current.names baseline.names = []
      rw [hnames, newIn_self]
    · show newIn baseline.names current.names = []
      rw [hnames, newIn_self]
    · rw [List.eq_nil_iff_forall_not_mem]
      intro change hchange
      exact not_levelMoved hpatterns (mem_changes.mp hchange)
    · show (Drift.between current.summary baseline.summary).isZero
      rw [hsummary]
      exact Drift.isZero_between_self _

/-- The second entry of `/a` says nothing of its level, `/c` is new once, and neither summary counts
its patterns. -/
theorem listed_twice_compared_once :
    let current : Snapshot :=
      ⟨[⟨"/a", .high, 9⟩, ⟨"/c", .low, 0⟩, ⟨"/a", .low, 0⟩, ⟨"/c", .high, 9⟩], ⟨7, 0, 1⟩, .low⟩
    let baseline : Snapshot :=
      ⟨[⟨"/d", .low, 0⟩, ⟨"/a", .low, 0⟩, ⟨"/d", .low, 0⟩], ⟨0, 0x7FFFFFFFFFFFFFFF, 0⟩, .high⟩
    (∀ level, (current.summary.count level).toNat < 2 ^ 63 ∧
        (baseline.summary.count level).toNat < 2 ^ 63) ∧
      (compare current baseline).new = ["/c"] ∧ (compare baseline current).new = ["/d"] ∧
      (compare current baseline).changes = [⟨"/a", .low, .high⟩] ∧
      (⟨"/a", .high, .low⟩ : RiskChange) ∈ (compare baseline current).changes ∧
      ((compare baseline current).drift.count .medium).toInt =
        -((compare current baseline).drift.count .medium).toInt ∧
      (compare current { current with threshold := .medium }).isMatch ∧
      (compare current { current with threshold := .medium }).new = [] := by
  intro current baseline
  have hfits : ∀ level, (current.summary.count level).toNat < 2 ^ 63 ∧
      (baseline.summary.count level).toNat < 2 ^ 63 := by
    intro level
    cases level <;> decide
  obtain ⟨-, -, -, -, -, hnew, -, hreversed, hdrift, -⟩ := comparison_both_ways current baseline
  obtain ⟨-, -, -, -, -, -, -, -, -, hnothing⟩ :=
    comparison_both_ways current { current with threshold := .medium }
  have hchanges : (compare current baseline).changes = [⟨"/a", .low, .high⟩] := by decide
  have hmatch : (compare current { current with threshold := .medium }).isMatch := by decide
  refine ⟨hfits, by decide, hnew.trans (by decide), hchanges, ?_, (hdrift hfits .medium).2, hmatch,
    (hnothing hmatch).1⟩
  rw [hreversed, hchanges]
  exact List.mem_singleton_self _

end RouteAudit.Gate
