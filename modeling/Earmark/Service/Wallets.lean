import Earmark.Service.World

/-!
Wallets: spendable balances and what is locked of them.
-/

namespace Earmark.Service

variable {b : Backend} {α : Type}

def findWallet (user : String) : Service b Wallet := do
  let w ← get
  check (Failure.require (.walletNotFound user) (w.store.wallets.find? (·.user == user)))

/-- Sets what is locked of a user's wallet. -/
def setLocked (user : String) (locked : Decimal) : Service b Unit :=
  modifyStore fun s =>
    { s with wallets := s.wallets.map fun w => if w.user == user then { w with locked } else w }

def openWallet (user : String) (balance : Numeral) : Service b Unit := atomically do
  let w ← get
  if w.store.wallets.any (·.user == user) then throw (.walletExists user)
  else
    let balance ← check balance.toAmount
    modifyStore fun s => { s with wallets := s.wallets ++ [{ user, balance }] }

/-- What of a wallet is neither spent nor locked. -/
def availableIn (wallet : Wallet) : Service b Decimal := do
  let balance ← check (b.money wallet.balance)
  let locked ← check (b.money wallet.locked)
  check (Failure.ofDecimal (balance.sub locked))

def available (user : String) : Service b Decimal := do availableIn (← findWallet user)

def locked (user : String) : Service b Decimal := do check (b.money (← findWallet user).locked)

/-- Runs an operation and locks an amount, which must be available before it runs. -/
def lockFunds (user : String) (amount : Numeral) (op : Service b α) : Service b α := do
  let amount ← check amount.toAmount
  atomically do
    let wallet ← findWallet user
    let free ← availableIn wallet
    let short ← check (Failure.ofDecimal (amount.gt? free))
    if short then throw (.insufficientFunds free amount)
    else
      let result ← op
      let locked ← check (b.money wallet.locked)
      setLocked user (← check (Failure.ofDecimal (locked.add amount)))
      return result

/-- Unlocks an amount, of which no more may be released than is locked. -/
def releaseFunds (user : String) (amount : Numeral) : Service b Unit := do
  let amount ← check amount.toAmount
  atomically do
    let locked ← check (b.money (← findWallet user).locked)
    let beyond ← check (Failure.ofDecimal (amount.gt? locked))
    if beyond then throw (.releaseBeyondLock amount locked user)
    else setLocked user (← check (Failure.ofDecimal (locked.sub amount)))

end Earmark.Service
