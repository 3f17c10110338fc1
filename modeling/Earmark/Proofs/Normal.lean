import Earmark.Proofs.Labels

/-!
Common forms stay as they are. Lower case is in no run of capitals and no white space, so a name in
its common form keeps it (`normalize_normalize`), a list that is a set stays one
(`sortedSet_sortedSet`), and the checks on the terms that an accepted policy states make the same
policy of them (`Policy.IsBuilt.build_terms`).
-/

namespace Earmark

namespace Text

/-! ### Lower case -/

/-- The number of the lower case of a character in a run. -/
private def image (run : Nat × Nat × Nat × Int) (n : Nat) : Nat := (n + run.2.2.2).toNat

/-- Whether the lower case of a run lies beside the capitals of another one, or between them. -/
private def liesApart (run other : Nat × Nat × Nat × Int) : Bool :=
  image run run.2.1 < other.1 || other.2.1 < image run run.1 ||
    ((run.1 == run.2.1 || run.2.2.1 == 2) && other.2.2.1 == 2 && image run run.1 % 2 != other.1 % 2)

/-- Whether the lower case of a run lies beside a number. -/
private def misses (run : Nat × Nat × Nat × Int) (n : Nat) : Bool :=
  image run run.2.1 < n || n < image run run.1

/-- The numbers of the two characters whose lower case is told apart, and of white space. -/
private def specials : List Nat :=
  [0x3a3, 0x130, 9, 10, 11, 12, 13, 28, 29, 30, 31, 32, 0x85, 0xa0, 0x1680, 0x2000, 0x2001, 0x2002,
   0x2003, 0x2004, 0x2005, 0x2006, 0x2007, 0x2008, 0x2009, 0x200a, 0x2028, 0x2029, 0x202f, 0x205f,
   0x3000]

/-- What the table of lower case has to offer: the lower case of each run consists of characters,
lies apart from all runs and misses the special ones. -/
private theorem lowercaseRuns_orderly :
    (lowercaseRuns.all fun run =>
      decide (0 ≤ run.1 + run.2.2.2) &&
      (decide (image run run.2.1 < 0xd800) ||
        decide (0xdfff < image run run.1) && decide (image run run.2.1 < 0x110000)) &&
      lowercaseRuns.all (liesApart run) && specials.all (misses run)) = true := by
  decide +kernel

/-- A character that lower case leaves alone. -/
private def IsSmall (c : Char) : Prop := lowerChar c = c ∧ c ≠ '\u03a3' ∧ c ≠ '\u0130'

private theorem mem_specials {c : Char} (blank : isBlank c = true) : c.toNat ∈ specials := by
  simp only [isBlank, Bool.or_eq_true, Bool.and_eq_true, decide_eq_true_eq, beq_iff_eq] at blank
  simp only [specials, List.mem_cons, List.not_mem_nil, or_false]
  omega

private theorem orderly_of_mem {run : Nat × Nat × Nat × Int} (mem : run ∈ lowercaseRuns) :
    (0 ≤ run.1 + run.2.2.2 ∧ (image run run.2.1 < 0xd800 ∨
      (0xdfff < image run run.1 ∧ image run run.2.1 < 0x110000))) ∧
      (∀ other ∈ lowercaseRuns, liesApart run other = true) ∧
      ∀ n ∈ specials, misses run n = true := by
  have orderly := List.all_eq_true.mp lowercaseRuns_orderly run mem
  simp only [Bool.and_eq_true, Bool.or_eq_true, decide_eq_true_eq, List.all_eq_true] at orderly
  exact ⟨⟨orderly.1.1.1, orderly.1.1.2⟩, orderly.1.2, orderly.2⟩

/-- Whether a run has the character of a number. -/
private def Covers (run : Nat × Nat × Nat × Int) (n : Nat) : Prop :=
  run.1 ≤ n ∧ n ≤ run.2.1 ∧ (n - run.1) % run.2.2.1 = 0

private theorem image_mono (run : Nat × Nat × Nat × Int) {m n : Nat} (le : m ≤ n) :
    image run m ≤ image run n := by
  simp only [image]
  omega

private theorem lowerChar_cases (c : Char) :
    (lowerChar c = c ∧ ∀ run ∈ lowercaseRuns, ¬Covers run c.toNat) ∨
      ∃ run ∈ lowercaseRuns, Covers run c.toNat ∧ (lowerChar c).toNat = image run c.toNat := by
  simp only [lowerChar]
  split
  case h_2 found =>
    refine .inl ⟨rfl, fun run mem covered => ?_⟩
    have other := List.find?_eq_none.mp found run mem
    simp [covered.1, covered.2.1, covered.2.2] at other
  case h_1 first last step shift found =>
    let run := (first, last, step, shift)
    have mem : run ∈ lowercaseRuns := List.mem_of_find?_eq_some found
    have covered := List.find?_some found
    simp only [Bool.and_eq_true, decide_eq_true_eq, beq_iff_eq] at covered
    have covered : Covers run c.toNat := ⟨covered.1.1, covered.1.2, covered.2⟩
    obtain ⟨⟨-, characters⟩, -, -⟩ := orderly_of_mem mem
    have low := image_mono run covered.1
    have high := image_mono run covered.2.1
    have valid : (image run c.toNat).isValidChar := by
      simp only [Nat.isValidChar]
      omega
    refine .inr ⟨run, mem, covered, ?_⟩
    rw [Char.toNat_ofNat]
    exact if_pos valid

/-- Lower case is in no run. -/
private theorem not_covers_lowerChar (c : Char) {run : Nat × Nat × Nat × Int}
    (mem : run ∈ lowercaseRuns) : ¬Covers run (lowerChar c).toNat := by
  rcases lowerChar_cases c with ⟨same, outside⟩ | ⟨own, owned, covered, lowered⟩
  · rw [same]
    exact outside run mem
  · intro again
    obtain ⟨⟨start, -⟩, apart, -⟩ := orderly_of_mem owned
    have low := image_mono own covered.1
    have high := image_mono own covered.2.1
    have split := apart run mem
    simp only [liesApart, Bool.or_eq_true, Bool.and_eq_true, decide_eq_true_eq, beq_iff_eq,
      bne_iff_ne] at split
    rw [lowered] at again
    obtain ⟨first, last, step⟩ := again
    obtain ⟨first', last', step'⟩ := covered
    rcases split with (below | above) | ⟨⟨parity, two⟩, odd⟩
    · omega
    · omega
    · rw [two] at step
      simp only [image] at first step odd
      rcases parity with single | two'
      · omega
      · rw [two'] at step'
        omega

theorem lowerChar_lowerChar (c : Char) : lowerChar (lowerChar c) = lowerChar c := by
  rcases lowerChar_cases (lowerChar c) with ⟨same, -⟩ | ⟨run, mem, covered, -⟩
  · exact same
  · exact absurd covered (not_covers_lowerChar c mem)

private theorem isSmall_lowerChar {c : Char} (other : c ≠ '\u03a3') (other' : c ≠ '\u0130') :
    IsSmall (lowerChar c) := by
  have plain : (lowerChar c).toNat ≠ 0x3a3 ∧ (lowerChar c).toNat ≠ 0x130 := by
    rcases lowerChar_cases c with ⟨same, -⟩ | ⟨run, mem, covered, lowered⟩
    · rw [same]
      exact ⟨fun eq => other (Char.toNat_inj.mp eq), fun eq => other' (Char.toNat_inj.mp eq)⟩
    · have missed := (orderly_of_mem mem).2.2
      have low := image_mono run covered.1
      have high := image_mono run covered.2.1
      have sigma := missed 0x3a3 (by decide)
      have dotted := missed 0x130 (by decide)
      simp only [misses, Bool.or_eq_true, decide_eq_true_eq] at sigma dotted
      omega
  refine ⟨lowerChar_lowerChar c, ?_, ?_⟩
  · rintro eq
    exact plain.1 (by rw [eq]; rfl)
  · rintro eq
    exact plain.2 (by rw [eq]; rfl)

private theorem isBlank_lowerChar {c : Char} (other : isBlank c = false) :
    isBlank (lowerChar c) = false := by
  rcases lowerChar_cases c with ⟨same, -⟩ | ⟨run, mem, covered, lowered⟩
  · rwa [same]
  · rw [Bool.eq_false_iff]
    intro blank
    have missed := (orderly_of_mem mem).2.2 _ (mem_specials blank)
    have low := image_mono run covered.1
    have high := image_mono run covered.2.1
    simp only [misses, Bool.or_eq_true, decide_eq_true_eq] at missed
    omega

private theorem isSmall_of_mem_lowerChars {c : Char} {before cs : List Char}
    (mem : c ∈ lowerChars before cs) : IsSmall c := by
  induction cs generalizing before with
  | nil => cases mem
  | cons first rest ih =>
    rw [lowerChars] at mem
    rcases List.mem_append.mp mem with own | later
    · split_ifs at own with sigma final dotted
      · exact List.mem_singleton.mp own ▸ ⟨by decide +kernel, by decide, by decide⟩
      · exact List.mem_singleton.mp own ▸ ⟨by decide +kernel, by decide, by decide⟩
      · rcases List.mem_cons.mp own with rfl | own
        · exact ⟨by decide +kernel, by decide, by decide⟩
        · exact List.mem_singleton.mp own ▸ ⟨by decide +kernel, by decide, by decide⟩
      · exact List.mem_singleton.mp own ▸ isSmall_lowerChar sigma dotted
    · exact ih later

private theorem lowerChars_eq_self {cs : List Char} (small : ∀ c ∈ cs, IsSmall c)
    (before : List Char) : lowerChars before cs = cs := by
  induction cs generalizing before with
  | nil => rfl
  | cons first rest ih =>
    obtain ⟨same, sigma, dotted⟩ := small first (by simp)
    rw [lowerChars, if_neg sigma, if_neg dotted, same, ih fun c mem => small c (by simp [mem])]
    rfl

theorem lower_lower (s : String) : lower (lower s) = lower s := by
  simp only [lower, String.toList_ofList]
  rw [lowerChars_eq_self fun c mem => isSmall_of_mem_lowerChars mem]

/-! ### White space at the ends -/

/-- No white space at either end. -/
private structure IsBare (cs : List Char) : Prop where
  head : ∀ c, cs.head? = some c → isBlank c = false
  last : ∀ c, cs.getLast? = some c → isBlank c = false

private theorem stripChars_eq (cs : List Char) :
    stripChars cs = (cs.dropWhile isBlank).rdropWhile isBlank := rfl

private theorem isBare_stripChars (cs : List Char) : IsBare (stripChars cs) := by
  rw [stripChars_eq]
  constructor
  · intro c first
    obtain ⟨rest, kept⟩ := List.head?_eq_some_iff.mp first
    obtain ⟨dropped, whole⟩ := List.rdropWhile_prefix isBlank (l := cs.dropWhile isBlank)
    have outer := List.head?_dropWhile_not isBlank cs
    rw [← whole, kept] at outer
    exact outer
  · intro c last
    obtain ⟨front, kept⟩ := List.getLast?_eq_some_iff.mp last
    have outer := List.rdropWhile_last_not isBlank (cs.dropWhile isBlank) (by simp [kept])
    simpa [kept] using outer

private theorem stripChars_eq_self {cs : List Char} (bare : IsBare cs) : stripChars cs = cs := by
  have kept : cs.dropWhile isBlank = cs := by
    cases cs with
    | nil => rfl
    | cons c rest => rw [List.dropWhile_cons, bare.head c rfl]; rfl
  rw [stripChars_eq, kept, List.rdropWhile_eq_self_iff]
  intro nonempty
  simpa using bare.last _ (List.getLast?_eq_some_getLast nonempty)

private theorem exists_lowered (before : List Char) (c : Char) (rest : List Char) :
    ∃ lowered, lowerChars before (c :: rest) = lowered ++ lowerChars (c :: before) rest ∧
      lowered ≠ [] ∧ (isBlank c = false → ∀ small ∈ lowered, isBlank small = false) := by
  refine ⟨_, rfl, ?_, fun other small mem => ?_⟩
  · split_ifs <;> simp
  · split_ifs at mem with sigma final dotted
    · exact List.mem_singleton.mp mem ▸ by decide
    · exact List.mem_singleton.mp mem ▸ by decide
    · rcases List.mem_cons.mp mem with rfl | mem
      · decide
      · exact List.mem_singleton.mp mem ▸ by decide
    · exact List.mem_singleton.mp mem ▸ isBlank_lowerChar other

private theorem isBlank_of_getLast?_lowerChars {cs : List Char} {before : List Char}
    (bare : ∀ c, cs.getLast? = some c → isBlank c = false) {small : Char}
    (last : (lowerChars before cs).getLast? = some small) : isBlank small = false := by
  induction cs generalizing before with
  | nil => cases last
  | cons c rest ih =>
    obtain ⟨lowered, split, nonempty, visible⟩ := exists_lowered before c rest
    cases rest with
    | nil =>
      rw [split, lowerChars, List.append_nil] at last
      exact visible (bare c rfl) small (List.mem_of_getLast? last)
    | cons next rest =>
      obtain ⟨lowered', split', nonempty', -⟩ := exists_lowered (c :: before) next rest
      rw [split, List.getLast?_append_of_ne_nil _ (by simp [split', nonempty'])] at last
      exact ih (fun c last => bare c (by simpa using last)) last

private theorem IsBare.lowerChars {cs : List Char} (bare : IsBare cs) (before : List Char) :
    IsBare (lowerChars before cs) := by
  refine ⟨fun small first => ?_, fun small last => isBlank_of_getLast?_lowerChars bare.last last⟩
  cases cs with
  | nil => cases first
  | cons c rest =>
    obtain ⟨lowered, split, nonempty, visible⟩ := exists_lowered before c rest
    rw [split, List.head?_append_of_ne_nil _ nonempty] at first
    exact visible (bare.head c rfl) small (List.mem_of_head? first)

/-- White space has no other case. -/
private theorem lowerChar_of_isBlank {c : Char} (blank : isBlank c = true) : lowerChar c = c := by
  have alone : ∀ n ∈ specials, isBlank (Char.ofNat n) = true →
      lowerChar (Char.ofNat n) = Char.ofNat n := by decide +kernel
  have same := alone _ (mem_specials blank)
  rw [Char.ofNat_toNat] at same
  exact same blank

private theorem lowerChars_cons_blank {c : Char} (blank : isBlank c = true)
    (before rest : List Char) :
    lowerChars before (c :: rest) = c :: lowerChars (c :: before) rest := by
  have sigma : c ≠ '\u03a3' := by
    rintro rfl
    exact absurd blank (by decide)
  have dotted : c ≠ '\u0130' := by
    rintro rfl
    exact absurd blank (by decide)
  rw [lowerChars, if_neg sigma, if_neg dotted, lowerChar_of_isBlank blank]
  rfl

private theorem getLast?_lowerChars_blank {cs : List Char} {c : Char} (last : cs.getLast? = some c)
    (blank : isBlank c = true) (before : List Char) :
    (lowerChars before cs).getLast? = some c := by
  induction cs generalizing before with
  | nil => cases last
  | cons first rest ih =>
    cases rest with
    | nil =>
      obtain rfl : first = c := Option.some.inj last
      rw [lowerChars_cons_blank blank, lowerChars]
      rfl
    | cons next rest =>
      obtain ⟨lowered, split, -, -⟩ := exists_lowered before first (next :: rest)
      rw [split, List.getLast?_append, ih (by simpa using last), Option.some_or]

/-- White space at the ends is there in lower case as well. -/
private theorem isBare_of_lowerChars {cs : List Char} (bare : IsBare (lowerChars [] cs)) :
    IsBare cs := by
  refine ⟨fun c first => ?_, fun c last => ?_⟩ <;> by_contra! blank <;>
    rw [ne_eq, Bool.not_eq_false] at blank
  · obtain ⟨rest, rfl⟩ := List.head?_eq_some_iff.mp first
    exact absurd (bare.head c (by rw [lowerChars_cons_blank blank]; rfl)) (by simp [blank])
  · exact absurd (bare.last c (getLast?_lowerChars_blank last blank [])) (by simp [blank])

private theorem isBare_of_strip {s : String} (stripped : strip s = s) : IsBare s.toList := by
  have bare := isBare_stripChars s.toList
  rwa [← String.toList_ofList (l := stripChars s.toList), ← strip, stripped] at bare

/-- A text that is bare in lower case is bare. -/
theorem strip_eq_self_of_lower {s : String} (bare : strip (lower s) = lower s) : strip s = s := by
  have lowered := isBare_of_strip bare
  rw [lower, String.toList_ofList] at lowered
  rw [strip, stripChars_eq_self (isBare_of_lowerChars lowered), String.ofList_toList]

private theorem stripChars_padded {before cs after : List Char} (bare : IsBare cs)
    (blank : ∀ c ∈ before, isBlank c = true) (blank' : ∀ c ∈ after, isBlank c = true) :
    stripChars (before ++ (cs ++ after)) = cs := by
  have behind : (cs ++ after).rdropWhile isBlank = cs.rdropWhile isBlank := by
    rw [List.rdropWhile, List.reverse_append, List.dropWhile_append_of_pos (by simpa using blank'),
      List.rdropWhile]
  rw [stripChars_eq, List.dropWhile_append_of_pos blank]
  cases cs with
  | nil =>
    rw [List.nil_append, List.dropWhile_eq_nil_iff.mpr blank']
    rfl
  | cons c rest =>
    have own := stripChars_eq_self bare
    rw [stripChars_eq, List.dropWhile_cons_of_neg (by simp [bare.head c rfl])] at own
    rw [List.cons_append, List.dropWhile_cons_of_neg (by simp [bare.head c rfl]),
      ← List.cons_append, behind, own]

/-- White space around a bare text is stripped. -/
theorem strip_padded {before s after : String} (bare : strip s = s) (blank : IsBlankName before)
    (blank' : IsBlankName after) : strip (before ++ s ++ after) = s := by
  rw [strip, String.toList_append, String.toList_append, List.append_assoc,
    stripChars_padded (isBare_of_strip bare) blank blank', String.ofList_toList]

theorem strip_lower_strip (s : String) : strip (lower (strip s)) = lower (strip s) := by
  simp only [strip, lower, String.toList_ofList]
  rw [stripChars_eq_self ((isBare_stripChars _).lowerChars [])]

end Text

/-- A name in its common form keeps it. -/
theorem normalize_normalize (name : String) : normalize (normalize name) = normalize name := by
  rw [normalize, normalize, Text.strip_lower_strip, Text.lower_lower]

/-! ### Lists as sets -/

private theorem eraseDups_sublist_nodup (names : List String) :
    names.eraseDups.Sublist names ∧ names.eraseDups.Nodup := by
  induction count : names.length using Nat.strongRecOn generalizing names with
  | ind count ih =>
    cases names with
    | nil => simp
    | cons name rest =>
      have shorter := List.length_filter_le (fun other => !other == name) rest
      rw [List.length_cons] at count
      obtain ⟨sublist, nodup⟩ := ih _ (by omega) (rest.filter fun other => !other == name) rfl
      rw [List.eraseDups_cons]
      exact ⟨(sublist.trans List.filter_sublist).cons_cons _,
        List.nodup_cons.mpr ⟨by simp [List.mem_eraseDups], nodup⟩⟩

private theorem eraseDups_of_nodup {names : List String} (nodup : names.Nodup) :
    names.eraseDups = names := by
  induction names with
  | nil => rfl
  | cons name rest ih =>
    obtain ⟨absent, nodup⟩ := List.nodup_cons.mp nodup
    have others : rest.filter (fun other => !other == name) = rest :=
      List.filter_eq_self.mpr fun other mem => by
        simpa using fun same : other = name => absent (same ▸ mem)
    rw [List.eraseDups_cons, others, ih nodup]

private theorem pairwise_sorted (names : List String) :
    (names.mergeSort fun a b => decide (a ≤ b)).Pairwise fun a b => decide (a ≤ b) := by
  refine List.pairwise_mergeSort (fun a b c first second => ?_) (fun a b => ?_) names
  · simp only [decide_eq_true_eq] at first second ⊢
    exact String.le_trans first second
  · simpa only [Bool.or_eq_true, decide_eq_true_eq] using String.le_total a b

theorem nodup_sortedSet (names : List String) : (sortedSet names).Nodup :=
  (eraseDups_sublist_nodup _).2

/-- A set does not depend on the order in which its members are given. -/
theorem sortedSet_perm {names others : List String} (perm : names.Perm others) :
    sortedSet names = sortedSet others := by
  have same : (names.mergeSort fun a b => decide (a ≤ b)) =
      others.mergeSort fun a b => decide (a ≤ b) := by
    refine (((List.mergeSort_perm _ _).trans perm).trans
      (List.mergeSort_perm _ _).symm).eq_of_pairwise (fun a b _ _ le ge => ?_)
      (pairwise_sorted names) (pairwise_sorted others)
    exact String.le_antisymm (of_decide_eq_true le) (of_decide_eq_true ge)
  rw [sortedSet, same, sortedSet]

/-- A list that is a set stays as it is. -/
theorem sortedSet_sortedSet (names : List String) :
    sortedSet (sortedSet names) = sortedSet names := by
  obtain ⟨sublist, nodup⟩ := eraseDups_sublist_nodup
    (names.mergeSort fun a b => decide (a ≤ b))
  rw [sortedSet, sortedSet,
    List.mergeSort_of_pairwise ((pairwise_sorted names).sublist sublist),
    eraseDups_of_nodup nodup]

theorem sortedSet_map_normalize (names : List String) :
    sortedSet ((sortedSet (names.map normalize)).map normalize) =
      sortedSet (names.map normalize) := by
  have same : (sortedSet (names.map normalize)).map normalize = sortedSet (names.map normalize) := by
    refine (List.map_congr_left fun name mem => ?_).trans (List.map_id _)
    obtain ⟨source, -, rfl⟩ := List.mem_map.mp (mem_sortedSet.mp mem)
    exact normalize_normalize source
  rw [same, sortedSet_sortedSet]

/-- The checks make of an accepted policy's own terms the same policy. -/
theorem Policy.IsBuilt.build_terms {policy : Policy} (built : policy.IsBuilt) :
    Policy.build policy.terms = .ok policy := by
  obtain ⟨terms, accepted⟩ := built
  obtain ⟨limit, brought, positive, tier, valid, rfl⟩ := Policy.build_ok_iff.mp accepted
  refine Policy.build_ok_iff.mpr ⟨limit, Numeral.toAmount_decimal (isAmount_of_toAmount brought),
    positive, tier, valid, ?_⟩
  simp only [Policy.terms, sortedSet_map_normalize, sortedSet_sortedSet]

end Earmark
