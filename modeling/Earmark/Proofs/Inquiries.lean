import Earmark.Proofs.Running
import Earmark.Service.Inquiry

/-!
Operations that only read. Whatever is asked of a store, and whoever a payment is resolved for, the
world stays as it is, also where the answer is a failure (`Service.readsOnly_ask`).
-/

namespace Earmark.Service

variable {b : Backend} {α : Type} {op : Service b α}

/-- The operation only reads. -/
def ReadsOnly (op : Service b α) : Prop := ∀ w : World b, (op.runFrom w).2 = w

theorem readsOnly_check (result : Except Failure α) : ReadsOnly (check result : Service b α) :=
  fun _ => rfl

theorem readsOnly_pure (x : α) : ReadsOnly (pure x : Service b α) := fun _ => rfl

theorem readsOnly_throw (failure : Failure) : ReadsOnly (throw failure : Service b α) :=
  fun _ => rfl

theorem readsOnly_get : ReadsOnly (get : Service b (World b)) := fun _ => rfl

theorem ReadsOnly.bind {β : Type} {next : α → Service b β} (first : ReadsOnly op)
    (rest : ∀ x, ReadsOnly (next x)) : ReadsOnly (op >>= next) := by
  intro w
  have same := first w
  rw [runFrom_bind]
  rcases ran : op.runFrom w with ⟨failure | x, after⟩
  · rwa [ran] at same
  · rw [ran] at same
    exact (rest x after).trans same

theorem readsOnly_findIntent? (id : String) : ReadsOnly (findIntent? id : Service b _) :=
  readsOnly_get.bind fun _ => readsOnly_check _

theorem readsOnly_listIntents (user : String) : ReadsOnly (listIntents user : Service b _) :=
  readsOnly_get.bind fun _ => readsOnly_check _

theorem readsOnly_resolvePayment (config : Config) (p : Payment) :
    ReadsOnly (resolvePayment config p : Service b _) := by
  unfold resolvePayment
  cases p.named with
  | some id =>
    refine (readsOnly_findIntent? id).bind fun found => ?_
    cases found with
    | none => exact readsOnly_throw _
    | some i =>
      dsimp only
      split
      · exact readsOnly_pure _
      · exact readsOnly_throw _
  | none =>
    dsimp only
    split
    · exact readsOnly_pure _
    · exact (readsOnly_listIntents _).bind fun _ => (readsOnly_check _).bind fun _ =>
        readsOnly_pure _

theorem readsOnly_findWallet (user : String) : ReadsOnly (findWallet user : Service b Wallet) :=
  readsOnly_get.bind fun _ => readsOnly_check _

theorem readsOnly_available (user : String) : ReadsOnly (available user : Service b Decimal) :=
  (readsOnly_findWallet user).bind fun _ => (readsOnly_check _).bind fun _ =>
    (readsOnly_check _).bind fun _ => readsOnly_check _

theorem readsOnly_locked (user : String) : ReadsOnly (locked user : Service b Decimal) :=
  (readsOnly_findWallet user).bind fun _ => readsOnly_check _

theorem readsOnly_getIntent (id : String) : ReadsOnly (getIntent id : Service b Intent) :=
  (readsOnly_findIntent? id).bind fun _ => readsOnly_check _

theorem readsOnly_history (user : String) (limit : Option Int) :
    ReadsOnly (history user limit : Service b _) :=
  readsOnly_get.bind fun _ => (readsOnly_check _).bind fun _ => readsOnly_check _

theorem readsOnly_getEscrow (id : String) : ReadsOnly (getEscrow id : Service b Escrow) :=
  readsOnly_get.bind fun _ => (readsOnly_check _).bind fun _ => readsOnly_check _

theorem readsOnly_listEscrows (user : String) : ReadsOnly (listEscrows user : Service b _) :=
  readsOnly_get.bind fun _ => readsOnly_check _

theorem readsOnly_reputation (config : Config) (user : String) :
    ReadsOnly (reputation config user : Service b _) :=
  (readsOnly_get.bind fun _ => readsOnly_check _).bind fun _ =>
    (readsOnly_get.bind fun _ => readsOnly_pure _).bind fun _ => readsOnly_pure _

theorem readsOnly_summary (user : String) : ReadsOnly (summary user : Service b _) :=
  (readsOnly_history user none).bind fun _ => (readsOnly_listIntents user).bind fun _ =>
    (readsOnly_listEscrows user).bind fun _ => readsOnly_check _

theorem readsOnly_ask (config : Config) (q : Inquiry) :
    ReadsOnly (q.ask config : Service b Answer) := by
  have reply {β : Type} {op : Service b β} (reads : ReadsOnly op) (f : β → Answer) :
      ReadsOnly (op >>= fun x => pure (f x)) := reads.bind fun _ => readsOnly_pure _
  cases q with
  | available user => exact reply (readsOnly_available user) _
  | locked user => exact reply (readsOnly_locked user) _
  | intent id => exact reply (readsOnly_getIntent id) _
  | intents user => exact reply (readsOnly_listIntents user) _
  | payments user limit => exact reply (readsOnly_history user limit) _
  | escrow id => exact reply (readsOnly_getEscrow id) _
  | escrows user => exact reply (readsOnly_listEscrows user) _
  | reputation user => exact reply (readsOnly_reputation config user) _
  | summary user => exact reply (readsOnly_summary user) _

end Earmark.Service
