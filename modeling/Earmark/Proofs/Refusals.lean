import Earmark.Http.Server
import Earmark.Proofs.Bounds
import Earmark.Proofs.Selection

/-!
Which failures a request can meet. The checks of the domain end in a result or in a refusal, which
has a status of its own (`Failure.IsRefusal`); arithmetic, comparisons of times and look-ups fail in
no other way as long as amounts are amounts, times have offsets and merchants have names. A payment
is then always judged (`Verdict.exists_validate`).
-/

namespace Earmark

/-- The failure is reported as something not found, as a conflict or as a value that is refused. -/
def Failure.IsRefusal (failure : Failure) : Prop :=
  ∃ status, failure.status? = some status ∧ status ∈ [404, 409, 422]

/-- The failure is reported as a value that is refused. -/
def Failure.IsInvalid (failure : Failure) : Prop := failure.status? = some 422

theorem Failure.IsInvalid.isRefusal {failure : Failure} (invalid : failure.IsInvalid) :
    failure.IsRefusal := ⟨422, invalid, by decide⟩

/-- What has a status belongs to the domain. -/
theorem Failure.IsRefusal.isDomain {failure : Failure} (refusal : failure.IsRefusal) :
    failure.isDomain = true := by
  obtain ⟨status, reported, -⟩ := refusal
  cases failure <;> first | rfl | cases reported

/-- If there is no result, there is a failure of the kind. -/
def OnlyFails {α : Type} (kind : Failure → Prop) (result : Except Failure α) : Prop :=
  ∀ failure, result = .error failure → kind failure

/-- If there is no result, there is a refusal. -/
abbrev OnlyRefuses {α : Type} (result : Except Failure α) : Prop :=
  OnlyFails Failure.IsRefusal result

section

variable {α β : Type} {kind : Failure → Prop} {result : Except Failure α}
  {next : α → Except Failure β}

theorem OnlyFails.refuses (invalid : OnlyFails Failure.IsInvalid result) : OnlyRefuses result :=
  fun failure failed => (invalid failure failed).isRefusal

theorem onlyFails_ok (a : α) : OnlyFails kind (.ok a : Except Failure α) := by
  intro failure failed
  cases failed

theorem onlyFails_of_exists (done : ∃ a, result = .ok a) : OnlyFails kind result := by
  obtain ⟨a, rfl⟩ := done
  exact onlyFails_ok a

theorem onlyFails_error {failure : Failure} (failing : kind failure) :
    OnlyFails kind (.error failure : Except Failure α) := by
  intro other failed
  cases failed
  exact failing

theorem onlyFails_bind (first : OnlyFails kind result)
    (rest : ∀ a, result = .ok a → OnlyFails kind (next a)) : OnlyFails kind (result >>= next) := by
  cases done : result with
  | error failure => exact onlyFails_error (first failure done)
  | ok a => exact rest a done

theorem onlyFails_ite {condition : Prop} [Decidable condition] {other : Except Failure α}
    (first : OnlyFails kind result) (second : OnlyFails kind other) :
    OnlyFails kind (if condition then result else other) := by
  split
  · exact first
  · exact second

theorem onlyFails_require {failure : Failure} (failing : kind failure) (found : Option α) :
    OnlyFails kind (Failure.require failure found) := by
  cases found with
  | none => exact onlyFails_error failing
  | some a => exact onlyFails_ok a

theorem onlyFails_mapM {γ : Type} {f : γ → Except Failure α} {found : Option γ}
    (fails : ∀ c ∈ found, OnlyFails kind (f c)) : OnlyFails kind (found.mapM f) := by
  cases found with
  | none => exact onlyFails_ok none
  | some c => exact onlyFails_bind (fails c rfl) fun a _ => onlyFails_ok (some a)

theorem exists_mapM {γ : Type} {f : γ → Except Failure α} {found : Option γ}
    (each : ∀ c ∈ found, ∃ a, f c = .ok a) : ∃ as, found.mapM f = .ok as := by
  cases found with
  | none => exact ⟨none, rfl⟩
  | some c =>
    obtain ⟨a, done⟩ := each c rfl
    exact ⟨some a, by simp [Option.mapM, done]⟩

theorem exists_of_mapM_some {γ : Type} {f : γ → Except Failure α} {found : Option γ} {a : α}
    (made : found.mapM f = .ok (some a)) : ∃ c ∈ found, f c = .ok a := by
  cases found with
  | none => cases made
  | some c =>
    obtain ⟨a', done, same⟩ := bind_ok_iff.mp made
    cases same
    exact ⟨c, rfl, done⟩

theorem exists_mapM_list {γ : Type} {f : γ → Except Failure α} {cs : List γ}
    (each : ∀ c ∈ cs, ∃ a, f c = .ok a) : ∃ as, cs.mapM f = .ok as := by
  induction cs with
  | nil => exact ⟨[], rfl⟩
  | cons c rest ih =>
    obtain ⟨a, done⟩ := each c (by simp)
    obtain ⟨as, all⟩ := ih fun c mem => each c (by simp [mem])
    exact ⟨a :: as, by simp [List.mapM_cons, done, all]⟩

theorem exists_of_mem_mapM {γ : Type} {f : γ → Except Failure α} {cs : List γ} {as : List α}
    (done : cs.mapM f = .ok as) {a : α} (mem : a ∈ as) : ∃ c ∈ cs, f c = .ok a := by
  induction cs generalizing as with
  | nil =>
    cases done
    cases mem
  | cons c rest ih =>
    simp only [List.mapM_cons, bind_ok_iff] at done
    obtain ⟨b, first, bs, all, done⟩ := done
    cases done
    rcases List.mem_cons.mp mem with rfl | mem
    · exact ⟨c, by simp, first⟩
    · obtain ⟨d, known, made⟩ := ih all mem
      exact ⟨d, by simp [known], made⟩

theorem exists_mem_of_mapM {γ : Type} {f : γ → Except Failure α} {cs : List γ} {as : List α}
    (done : cs.mapM f = .ok as) {c : γ} (mem : c ∈ cs) : ∃ a ∈ as, f c = .ok a := by
  induction cs generalizing as with
  | nil => cases mem
  | cons head rest ih =>
    simp only [List.mapM_cons, bind_ok_iff] at done
    obtain ⟨b, first, bs, all, done⟩ := done
    cases done
    rcases List.mem_cons.mp mem with rfl | mem
    · exact ⟨b, by simp, first⟩
    · obtain ⟨a, known, made⟩ := ih all mem
      exact ⟨a, by simp [known], made⟩

private theorem exists_filterAuxM {γ : Type} {f : γ → Except Failure Bool} {cs : List γ}
    (each : ∀ c ∈ cs, ∃ chosen, f c = .ok chosen) (acc : List γ) :
    ∃ kept, cs.filterAuxM f acc = .ok kept := by
  induction cs generalizing acc with
  | nil => exact ⟨acc, rfl⟩
  | cons c rest ih =>
    obtain ⟨chosen, done⟩ := each c (by simp)
    obtain ⟨kept, all⟩ := ih (fun c mem => each c (by simp [mem])) (cond chosen (c :: acc) acc)
    exact ⟨kept, by simp [List.filterAuxM, done, all]⟩

theorem exists_filterM {γ : Type} {f : γ → Except Failure Bool} {cs : List γ}
    (each : ∀ c ∈ cs, ∃ chosen, f c = .ok chosen) : ∃ kept, cs.filterM f = .ok kept := by
  obtain ⟨kept, filtered⟩ := exists_filterAuxM each []
  exact ⟨kept.reverse, by simp [List.filterM, filtered]⟩

theorem exists_foldlM {γ : Type} {f : γ → γ → Except Failure γ} {Good : γ → Prop}
    (each : ∀ {b c}, Good b → Good c → ∃ d, f b c = .ok d ∧ Good d) {cs : List γ} {first : γ}
    (good : Good first) (goods : ∀ c ∈ cs, Good c) : ∃ last, cs.foldlM f first = .ok last := by
  induction cs generalizing first with
  | nil => exact ⟨first, rfl⟩
  | cons c rest ih =>
    obtain ⟨next, done, good'⟩ := each good (goods c (by simp))
    obtain ⟨last, folded⟩ := ih good' fun c mem => goods c (by simp [mem])
    exact ⟨last, by simp [List.foldlM_cons, done, folded]⟩

end

/-! ### Amounts and policies -/

namespace Decimal

variable {a b : Decimal}

theorem exists_eq? (finiteA : a.isFinite) (finiteB : b.isFinite) :
    ∃ same, a.eq? b = .ok same := ⟨_, eq?_finite finiteA finiteB⟩

theorem exists_gt? (finiteA : a.isFinite) (finiteB : b.isFinite) :
    ∃ greater, a.gt? b = .ok greater := ⟨_, lt?_finite finiteB finiteA⟩

end Decimal

/-- A decimal that is no amount is refused as a value. -/
theorem onlyInvalid_toAmount (d : Decimal) :
    OnlyFails Failure.IsInvalid (Numeral.decimal d).toAmount := by
  intro failure failed
  simp only [Numeral.toAmount, Decimal.toAmount, amountOf] at failed
  split at failed
  · cases failed
    exact rfl
  · split at failed
    · cases failed
    · cases failed
      exact rfl

theorem onlyRefuses_toAmount (d : Decimal) : OnlyRefuses (Numeral.decimal d).toAmount :=
  (onlyInvalid_toAmount d).refuses

theorem GeoRestriction.onlyInvalid_build (city region : Option String) (radius : Option Measure) :
    OnlyFails Failure.IsInvalid (build city region radius) :=
  onlyFails_ite (onlyFails_error rfl) (onlyFails_ite (onlyFails_error rfl) (onlyFails_ok _))

theorem GeoRestriction.radius_of_build {city region : Option String} {radius : Option Measure}
    {geo : GeoRestriction} (built : build city region radius = .ok geo) :
    geo.radius = radius := by
  unfold build at built
  split at built
  · cases built
  · split at built
    · cases built
    · cases built
      rfl

theorem SplitRule.onlyInvalid_ofParts {spend save : Decimal} (first : spend.Below 1)
    (second : save.Below 1) : OnlyFails Failure.IsInvalid (ofParts spend save) := by
  obtain ⟨total, added, -, below⟩ := first.exists_add second (by decide)
  obtain ⟨whole, compared⟩ := Decimal.exists_eq? (b := .ofNat 1) below.isFinite_eq rfl
  have refused : OnlyFails (α := SplitRule) Failure.IsInvalid
      (.error (.policy (.splitSum spend save))) := onlyFails_error rfl
  simp only [ofParts, Decimal.lt?_finite (b := .ofNat 0) first.isFinite_eq rfl,
    Decimal.lt?_finite (b := .ofNat 0) second.isFinite_eq rfl, added, compared,
    Failure.ofDecimal_ok, ok_bind]
  exact onlyFails_ite refused (onlyFails_ite refused
    (onlyFails_ite (onlyFails_ok _) refused))

theorem Policy.onlyInvalid_build {terms : PolicyTerms} {d : Decimal}
    (stated : terms.limit = .decimal d) : OnlyFails Failure.IsInvalid (build terms) := by
  rw [build, stated]
  refine onlyFails_bind (onlyInvalid_toAmount d) fun limit brought => ?_
  have amount := isAmount_of_toAmount brought
  simp only [amount.le?_zero, Failure.ofDecimal_ok, ok_bind]
  exact onlyFails_ite (onlyFails_error rfl) (onlyFails_ite (onlyFails_error rfl)
    (onlyFails_ite (onlyFails_error rfl) (onlyFails_ok _)))

/-! ### Intents -/

/-- Times with offsets compare. -/
theorem Time.after_eq {a b : Time} (aware : a.offset.isSome) (aware' : b.offset.isSome) :
    a.after b = .ok (compare a.instant b.instant == .gt) := by
  simp [Time.after, Time.compare?, aware, aware', Failure.require]

theorem Time.exists_thenBefore {a b : Time} {next : Except Failure Bool}
    (aware : a.offset.isSome) (aware' : b.offset.isSome) (done : ∃ before, next = .ok before) :
    ∃ before, a.thenBefore b next = .ok before := by
  unfold Time.thenBefore
  split
  · exact done
  · exact ⟨_, Time.after_eq aware' aware⟩

/-- The radius of the policy's restriction, if it has one, is a floating-point number. -/
def Policy.HasFloatRadius (policy : Policy) : Prop :=
  ∀ geo ∈ policy.geo, ∀ radius ∈ geo.radius, ∃ x, radius.toFloat = .ok x

/-- The fence of the policy's city, if it names one, can be drawn. -/
def Policy.HasFence (policy : Policy) : Prop :=
  ∀ geo ∈ policy.geo, isNamed geo.city = true →
    ∃ bounds, City.fence (City.canonical (geo.city.getD "")) geo.radius = .ok bounds

namespace Intent

/-- The ledger of the intent is sound, and its times have offsets. -/
structure Timed (i : Intent) : Prop where
  sound : i.Sound
  createdAt : i.createdAt.offset.isSome
  expiresAt : i.expiresAt.offset.isSome

/-- The ledger of the intent is sound, its times have offsets, and it can be shown. -/
structure Orderly (i : Intent) : Prop where
  sound : i.Sound
  createdAt : i.createdAt.offset.isSome
  expiresAt : i.expiresAt.offset.isSome
  radius : i.policy.HasFloatRadius

theorem Orderly.timed {i : Intent} (orderly : i.Orderly) : i.Timed :=
  ⟨orderly.sound, orderly.createdAt, orderly.expiresAt⟩

theorem Timed.later {i j : Intent} (timed : i.Timed) (later : i.Precedes j) (sound : j.Sound) :
    j.Timed :=
  ⟨sound, later.createdAt ▸ timed.createdAt, later.expiresAt ▸ timed.expiresAt⟩

/-- A later state of an intent has its times and its policy. -/
theorem Orderly.later {i j : Intent} (orderly : i.Orderly) (later : i.Precedes j)
    (sound : j.Sound) : j.Orderly :=
  ⟨sound, later.createdAt ▸ orderly.createdAt, later.expiresAt ▸ orderly.expiresAt,
    later.policy ▸ orderly.radius⟩

variable {i : Intent} {now : Time}

theorem Timed.isExpired_eq (timed : i.Timed) (aware : now.offset.isSome) :
    i.isExpired now = .ok (compare now.instant i.expiresAt.instant == .gt) :=
  Time.after_eq aware timed.expiresAt

theorem Sound.onlyRefuses_spend (sound : i.Sound) (d : Decimal) :
    OnlyRefuses (i.spend (.decimal d)) := by
  unfold spend
  refine onlyFails_bind (onlyRefuses_toAmount d) fun amount brought => ?_
  have whole := isAmount_of_toAmount brought
  obtain ⟨rest, remaining, wholeRest, -⟩ := sound.exists_remaining
  obtain ⟨used, added, -, below⟩ := sound.used.below.exists_add whole.below (by decide)
  obtain ⟨left, subtracted, belowLeft⟩ :=
    (sound.limit.below.mono (by decide)).exists_sub below (by decide)
  obtain ⟨exhausted, compared⟩ := Decimal.exists_eq? (b := .zero) belowLeft.isFinite_eq rfl
  have leaves : Intent.remaining { i with used, approvals := i.approvals + 1 } = .ok left :=
    Failure.ofDecimal_ok_iff.mpr subtracted
  simp only [whole.le?_zero, remaining, whole.gt?_eq wholeRest, added, leaves, compared,
    Failure.ofDecimal_ok, ok_bind]
  exact onlyFails_ite (onlyFails_error ⟨409, rfl, by decide⟩) (onlyFails_ite
    (onlyFails_error ⟨409, rfl, by decide⟩) (onlyFails_ite
    (onlyFails_error ⟨409, rfl, by decide⟩) (onlyFails_ok _)))

theorem Sound.onlyRefuses_cancel (sound : i.Sound) : OnlyRefuses i.cancel := by
  obtain ⟨rest, remaining, -⟩ := sound.exists_remaining
  simp only [cancel, remaining, ok_bind]
  exact onlyFails_ite (onlyFails_error ⟨409, rfl, by decide⟩) (onlyFails_ok _)

theorem Timed.exists_expire (timed : i.Timed) (aware : now.offset.isSome) :
    ∃ closing, i.expire now = .ok closing := by
  obtain ⟨rest, remaining, -⟩ := timed.sound.exists_remaining
  simp only [expire, timed.isExpired_eq aware, remaining, ok_bind]
  split
  · exact ⟨_, rfl⟩
  · split
    · exact ⟨_, rfl⟩
    · exact ⟨_, rfl⟩

end Intent

/-! ### Wallets -/

namespace Wallet

variable {wallets : List Wallet}

theorem onlyRefuses_released
    (amounts : ∀ wallet ∈ wallets, wallet.balance.IsAmount ∧ wallet.locked.IsAmount)
    (user : String) (d : Decimal) : OnlyRefuses (released wallets user (.decimal d)) := by
  refine onlyFails_bind (onlyRefuses_toAmount d) fun amount brought =>
    onlyFails_bind (onlyFails_require ⟨404, rfl, by decide⟩ _) fun wallet found => ?_
  have whole := isAmount_of_toAmount brought
  have locked := (amounts wallet (List.mem_of_find?_eq_some
    (Failure.require_ok_iff.mp found))).2
  obtain ⟨rest, subtracted, -⟩ := locked.below.exists_sub whole.below (by decide)
  simp only [whole.gt?_eq locked, subtracted, Failure.ofDecimal_ok, ok_bind]
  exact onlyFails_ite (onlyFails_error ⟨409, rfl, by decide⟩) (onlyFails_ok _)

theorem onlyRefuses_releasedRest
    (amounts : ∀ wallet ∈ wallets, wallet.balance.IsAmount ∧ wallet.locked.IsAmount)
    (i : Intent) {rest : Decimal} (whole : rest.IsAmount) :
    OnlyRefuses (releasedRest wallets i rest) := by
  simp only [releasedRest, whole.gt?_zero, Failure.ofDecimal_ok, ok_bind]
  exact onlyFails_ite (onlyRefuses_released amounts i.user rest) (onlyFails_ok _)

theorem onlyRefuses_lockable
    (amounts : ∀ wallet ∈ wallets, wallet.balance.IsAmount ∧ wallet.locked.IsAmount)
    (user : String) (d : Decimal) : OnlyRefuses (lockable wallets user (.decimal d)) := by
  refine onlyFails_bind (onlyRefuses_toAmount d) fun amount brought =>
    onlyFails_bind (onlyFails_require ⟨404, rfl, by decide⟩ _) fun wallet found => ?_
  have whole := isAmount_of_toAmount brought
  obtain ⟨balance, locked⟩ := amounts wallet (List.mem_of_find?_eq_some
    (Failure.require_ok_iff.mp found))
  obtain ⟨free, subtracted, below⟩ := balance.below.exists_sub locked.below (by decide)
  obtain ⟨short, compared⟩ := Decimal.exists_gt? whole.isFinite_eq below.isFinite_eq
  simp only [subtracted, compared, Failure.ofDecimal_ok, ok_bind]
  exact onlyFails_ite (onlyFails_error ⟨409, rfl, by decide⟩) (onlyFails_ok _)

end Wallet

/-! ### Choosing an intent -/

theorem exists_sortByTime {α : Type} {time : α → Time} {xs : List α}
    (aware : ∀ x ∈ xs, (time x).offset.isSome) : ∃ sorted, sortByTime time xs = .ok sorted := by
  have alike : Time.alike (xs.map time) = true := by
    simp only [Time.alike, Bool.or_eq_true, List.all_map, List.all_eq_true]
    exact .inl aware
  exact ⟨_, by rw [sortByTime, if_pos alike]⟩

theorem Intent.Orderly.exists_canPay {i : Intent} (orderly : i.Orderly) {d : Decimal}
    (amount : d.IsAmount) {now : Time} (aware : now.offset.isSome) :
    ∃ able, Intent.canPay d now i = .ok able := by
  obtain ⟨rest, remaining, wholeRest, -⟩ := orderly.sound.exists_remaining
  simp only [canPay, orderly.timed.isExpired_eq aware, remaining, ok_bind,
    Decimal.le?_finite amount.isFinite_eq wholeRest.isFinite_eq, Failure.ofDecimal_ok]
  split
  · exact ⟨_, rfl⟩
  · split
    · exact ⟨_, rfl⟩
    · exact ⟨_, rfl⟩

namespace Strategy

variable {i j : Intent} {intents : List Intent}

theorem exists_before (strategy : Strategy) (first : i.Orderly) (second : j.Orderly) :
    ∃ before, strategy.before i j = .ok before := by
  have older : ∃ before, i.createdAt.thenBefore j.createdAt (.ok (decide (i.id < j.id))) =
      .ok before := Time.exists_thenBefore first.createdAt second.createdAt ⟨_, rfl⟩
  cases strategy with
  | soonestExpiring => exact Time.exists_thenBefore first.expiresAt second.expiresAt older
  | firstCreated => exact older

theorem exists_least (strategy : Strategy) (orderly : ∀ i ∈ intents, i.Orderly) :
    ∃ chosen, strategy.least intents = .ok chosen := by
  cases intents with
  | nil => exact ⟨none, rfl⟩
  | cons first rest =>
    have each {best next : Intent} (good : best.Orderly) (good' : next.Orderly) :
        ∃ kept, (do return if ← strategy.before next best then next else best) =
          (.ok kept : Except Failure Intent) ∧ kept.Orderly := by
      obtain ⟨before, compared⟩ := strategy.exists_before good' good
      refine ⟨if before then next else best, by rw [compared]; rfl, ?_⟩
      split
      · exact good'
      · exact good
    obtain ⟨last, folded⟩ := exists_foldlM each (orderly first (by simp))
      fun i mem => orderly i (List.mem_cons_of_mem first mem)
    exact ⟨some last, by simp only [least, folded]; rfl⟩

theorem exists_choose (strategy : Strategy) (orderly : ∀ i ∈ intents, i.Orderly) {d : Decimal}
    (amount : d.IsAmount) {now : Time} (aware : now.offset.isSome) :
    ∃ chosen, strategy.choose intents (.decimal d) now = .ok chosen := by
  obtain ⟨able, filtered⟩ := exists_filterM fun i mem =>
    (orderly i mem).exists_canPay amount aware
  have able_orderly : ∀ i ∈ able, i.Orderly := fun i mem =>
    orderly i (mem_of_filterM filtered mem)
  obtain ⟨chosen, least⟩ := strategy.exists_least able_orderly
  exact ⟨chosen, by
    simp only [choose, Numeral.toAmount_decimal amount, ok_bind, filtered, least]⟩

end Strategy

/-- A payment has an intent to go to, or is refused. -/
theorem Payment.onlyRefuses_target {config : Config} {intents : List Intent} {p : Payment}
    (orderly : ∀ i ∈ intents, i.Orderly) (amount : p.amount.IsAmount)
    (aware : p.context.requestedAt.offset.isSome) : OnlyRefuses (p.target config intents) := by
  unfold Payment.target
  cases p.named with
  | some id =>
    have missing : (Failure.intentNotFound id (.forUser p.user)).IsRefusal := ⟨404, rfl, by decide⟩
    dsimp only
    split
    · exact onlyFails_ite (onlyFails_ok _) (onlyFails_error missing)
    · exact onlyFails_error missing
  | none =>
    have own : ∀ i ∈ intents.filter (·.user == p.user), i.Orderly :=
      fun i mem => orderly i (List.mem_of_mem_filter mem)
    obtain ⟨sorted, done⟩ := exists_sortByTime fun i mem => (own i mem).createdAt
    obtain ⟨chosen, choice⟩ := config.strategy.exists_choose
      (fun i mem => own i (mem_of_sortByTime done mem)) amount aware
    simp only [done, choice, ok_bind]
    exact onlyFails_ite (onlyFails_ok _) (onlyFails_ok _)

/-! ### Judging a payment -/

/-- The merchant's city and region are texts, and its id has an encoding. -/
structure Merchant.IsNamed (m : Merchant) : Prop where
  city : ∃ city, m.city = .text city
  region : ∃ region, m.region = .text region
  id : ∀ points, m.id ≠ .unpaired points

theorem Merchant.encodedId_eq {m : Merchant} (encodable : ∀ points, m.id ≠ .unpaired points) :
    m.encodedId = .ok m.id.shown := by
  unfold encodedId
  split
  · rename_i points id
    exact absurd id (encodable points)
  · rfl

theorem City.exists_fence (name : String) {radius : Option Measure}
    (float : ∀ r ∈ radius, ∃ x, r.toFloat = .ok x) :
    ∃ bounds, City.fence name radius = .ok bounds := by
  unfold City.fence
  cases City.find? name with
  | none => exact ⟨none, rfl⟩
  | some city =>
    cases radius with
    | none => exact ⟨_, rfl⟩
    | some r =>
      obtain ⟨x, exact⟩ := float r rfl
      exact ⟨_, by simp only [exact, ok_bind]; rfl⟩

namespace Finding

variable {i : Intent} {m : Merchant} {d : Decimal} {context : Context}

private theorem exists_ite {α : Type} {condition : Prop} [Decidable condition]
    {result other : Except Failure α} (first : ∃ a, result = .ok a) (second : ∃ a, other = .ok a) :
    ∃ a, (if condition then result else other) = .ok a := by
  split
  · exact first
  · exact second

theorem exists_intentStatus (timed : i.Timed) (aware : context.requestedAt.offset.isSome) :
    ∃ finding, intentStatus i context = .ok finding := by
  simp only [intentStatus, timed.isExpired_eq aware, ok_bind]
  exact exists_ite ⟨_, rfl⟩ (exists_ite ⟨_, rfl⟩ ⟨_, rfl⟩)

theorem exists_amountCap (sound : i.Sound) (amount : d.IsAmount) :
    ∃ finding, amountCap i d = .ok finding := by
  obtain ⟨rest, remaining, wholeRest, -⟩ := sound.exists_remaining
  obtain ⟨left, subtracted, -⟩ := wholeRest.below.exists_sub amount.below (by decide)
  simp only [amountCap, amount.le?_zero, remaining, amount.gt?_eq wholeRest, subtracted,
    Failure.ofDecimal_ok, ok_bind]
  exact exists_ite ⟨_, rfl⟩ (exists_ite ⟨_, rfl⟩ ⟨_, rfl⟩)

theorem exists_timeWindow (timed : i.Timed) (aware : context.requestedAt.offset.isSome) :
    ∃ finding, timeWindow i context = .ok finding := by
  simp only [timeWindow, Time.after_eq timed.createdAt aware,
    Time.after_eq aware timed.expiresAt, ok_bind]
  split
  · exact exists_ite ⟨_, rfl⟩ ⟨_, rfl⟩
  · exact exists_ite ⟨_, rfl⟩ ⟨_, rfl⟩

theorem exists_cityFence {city : String} {radius : Option Measure}
    (fence : ∃ bounds, City.fence (City.canonical city) radius = .ok bounds) (named : m.IsNamed) :
    ∃ finding, cityFence city radius m = .ok finding := by
  obtain ⟨place, at_⟩ := named.city
  obtain ⟨bounds, fence⟩ := fence
  simp only [cityFence, fence, at_, placeName, ok_bind]
  exact exists_ite ⟨_, rfl⟩ (exists_ite ⟨_, rfl⟩ (exists_ite ⟨_, rfl⟩ ⟨_, rfl⟩))

theorem exists_regionFence (region : String) (named : m.IsNamed) :
    ∃ finding, regionFence region m = .ok finding := by
  obtain ⟨place, at_⟩ := named.region
  simp only [regionFence, at_, placeName, ok_bind]
  exact exists_ite ⟨_, rfl⟩ ⟨_, rfl⟩

theorem exists_geoFence (fence : i.policy.HasFence) (named : m.IsNamed) :
    ∃ finding, geoFence i m = .ok finding := by
  unfold geoFence
  cases restricted : i.policy.geo with
  | none => exact ⟨_, rfl⟩
  | some geo =>
    obtain ⟨byRegion, region⟩ := exists_regionFence (geo.region.getD "") named
    simp only [region, ok_bind]
    by_cases restrictsCity : isNamed geo.city = true
    · obtain ⟨byCity, city⟩ := exists_cityFence (fence geo restricted restrictsCity) named
      simp only [restrictsCity, city, ↓reduceIte, ok_bind]
      cases byCity with
      | fail reason => exact ⟨_, rfl⟩
      | pass note => exact exists_ite (by cases byRegion <;> exact ⟨_, rfl⟩) ⟨_, rfl⟩
    · rw [if_neg restrictsCity]
      exact exists_ite (by cases byRegion <;> exact ⟨_, rfl⟩) ⟨_, rfl⟩

theorem exists_ofStage (timed : i.Timed) (fence : i.policy.HasFence) (named : m.IsNamed)
    (amount : d.IsAmount) (aware : context.requestedAt.offset.isSome) (stage : Stage) :
    ∃ finding, ofStage i m d context stage = .ok finding := by
  cases stage with
  | emergencyOverride => exact ⟨_, rfl⟩
  | intentStatus => exact exists_intentStatus timed aware
  | amountCap => exact exists_amountCap timed.sound amount
  | timeWindow => exact exists_timeWindow timed aware
  | geoFence => exact exists_geoFence fence named
  | merchantCategory => exact ⟨_, rfl⟩
  | merchantTier => exact ⟨_, rfl⟩
  | proofRequirement => exact ⟨_, rfl⟩

end Finding

theorem Check.exists_run {finding : Stage → Except Failure Finding}
    (each : ∀ stage, ∃ found, finding stage = .ok found) (stages : List Stage) :
    ∃ checks, Check.run finding stages = .ok checks := by
  induction stages with
  | nil => exact ⟨[], rfl⟩
  | cons stage rest ih =>
    obtain ⟨found, done⟩ := each stage
    obtain ⟨checks, run⟩ := ih
    simp only [Check.run, done, run, ok_bind]
    cases found <;> exact ⟨_, rfl⟩

/-- An intent that is not active fails before its fence is drawn. -/
theorem Check.exists_run_inactive {i : Intent} (inactive : i.status ≠ .active) (m : Merchant)
    (d : Decimal) (context : Context) :
    ∃ checks, Check.run (Finding.ofStage i m d context) Stage.order = .ok checks := by
  have closed : i.isActive = false := by simp [Intent.isActive, inactive]
  exact ⟨_, by
    simp only [Stage.order, Check.run, Finding.ofStage, Finding.intentStatus, closed, Bool.not_false,
      ↓reduceIte, ok_bind]
    rfl⟩

/-- Payments of the intent can be judged: its times compare and, if it is active, its fence can be
drawn. -/
structure Intent.IsJudgeable (i : Intent) : Prop where
  timed : i.Timed
  fence : i.status = .active → i.policy.HasFence

theorem Intent.Orderly.isJudgeable {i : Intent} (orderly : i.Orderly) : i.IsJudgeable :=
  ⟨orderly.timed, fun _ geo restricted _ => City.exists_fence _ (orderly.radius geo restricted)⟩

theorem Intent.IsJudgeable.exists_run {i : Intent} (judgeable : i.IsJudgeable) {m : Merchant}
    (named : m.IsNamed) {d : Decimal} (amount : d.IsAmount) {context : Context}
    (aware : context.requestedAt.offset.isSome) :
    ∃ checks, Check.run (Finding.ofStage i m d context) Stage.order = .ok checks := by
  by_cases active : i.status = .active
  · exact Check.exists_run
      (Finding.exists_ofStage judgeable.timed (judgeable.fence active) named amount aware) _
  · exact Check.exists_run_inactive active m d context

/-- A payment of an amount is always judged, for whatever intent can be, or for none. -/
theorem Verdict.exists_validate {thresholds : RiskThresholds}
    (finite : thresholds.highValue.isFinite) {intent : Option Intent}
    (judgeable : ∀ i ∈ intent, i.IsJudgeable) {m : Merchant} (named : m.IsNamed) {d : Decimal}
    (amount : d.IsAmount) {context : Context}
    (aware : context.requestedAt.offset.isSome) :
    ∃ v, Verdict.validate thresholds intent m (.decimal d) context = .ok v := by
  obtain ⟨high, compared⟩ := Decimal.exists_gt? amount.isFinite_eq finite
  obtain ⟨risk, assessed⟩ : ∃ risk, RiskAssessment.assess thresholds m d = .ok risk :=
    ⟨_, by simp only [RiskAssessment.assess, compared, Failure.ofDecimal_ok, ok_bind]; rfl⟩
  have concluded (checks : List Check) :
      ∃ v, Verdict.ofChecks thresholds intent m d context checks = .ok v := by
    unfold Verdict.ofChecks
    split
    · exact ⟨_, rfl⟩
    · exact ⟨_, by simp only [Merchant.encodedId_eq named.id, assessed, ok_bind]; rfl⟩
  simp only [Verdict.validate, Verdict.judge, Numeral.toAmount_decimal amount, ok_bind]
  split
  · exact ⟨_, by
      simp only [Verdict.override, assessed, Merchant.encodedId_eq named.id, ok_bind]
      rfl⟩
  · cases intent with
    | none =>
      have judged (stage : Stage) : ∃ found, Check.withoutIntent stage = .ok found := by
        cases stage <;> exact ⟨_, rfl⟩
      obtain ⟨checks, run⟩ := Check.exists_run judged Stage.order
      obtain ⟨v, verdict⟩ := concluded checks
      exact ⟨v, by simp only [run, ok_bind, verdict]⟩
    | some i =>
      obtain ⟨checks, run⟩ := (judgeable i rfl).exists_run named amount aware
      obtain ⟨v, verdict⟩ := concluded checks
      exact ⟨v, by simp only [run, ok_bind, verdict]⟩

end Earmark
