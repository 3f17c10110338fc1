import Earmark.Decimal.Arithmetic
import Earmark.Decimal.Text
import Earmark.Json.Basic
import Earmark.Text.Units
import Earmark.Time.Reader
import Earmark.Vocabulary

/-!
Why an operation is refused. A failed check of a payment is no failure: it is a verdict.

Most causes belong to the domain: the request could not be carried out. The others are faults of
the values themselves or of the stores, and a service may wrap them.
-/

namespace Earmark

/-- Why a number is no amount of money. -/
inductive AmountFault
  /-- It cannot be written to the cent in the digits that arithmetic keeps. -/
  | notToTheCent
  | notFinite
  deriving DecidableEq, Repr

inductive PolicyFault
  | geoWithoutPlace
  | geoRadius
  | splitSum (spend save : Decimal)
  | amountLimit
  | tier (n : Int)
  | validity
  | noMilestone
  | milestoneAmount (amount : Decimal)
  deriving Repr

/-- How an intent was looked for. -/
inductive Lookup
  | byId
  /-- By the key of a table. -/
  | byKey
  /-- Among the intents of a user. -/
  | forUser (user : String)
  deriving DecidableEq, Repr

inductive Failure
  | intentNotFound (id : String) (lookup : Lookup)
  | escrowNotFound (id : String) (lookup : Lookup)
  | milestoneNotFound (milestone escrow : String)
  | merchantNotFound (id : String)
  | walletNotFound (user : String)
  | walletExists (user : String)
  | registryTimeout (seconds : String)
  | registryStatus (code : Int)
  | registryUnreachable (reason : String)
  /-- The registry answered with something that is no merchant. -/
  | registryData (cause : Failure)
  | policy (fault : PolicyFault)
  | amount (shown : String) (fault : AmountFault)
  | insufficientFunds (available required : Decimal)
  | releaseBeyondLock (amount locked : Decimal) (user : String)
  /-- An intent could not be recorded, so its funds were not locked. -/
  | creationRejected (cause : Failure)
  | usageOfInactive (id : String) (status : IntentStatus)
  | cancelOfInactive (id : String) (status : IntentStatus)
  | usageNotPositive (amount : Decimal)
  | usageBeyondRemaining (amount : Decimal) (id : String) (remaining : Decimal)
  | milestoneCompleted (id : String)
  | proofRequired (kind : String)
  | releaseAfterClawback (escrow : String)
  | clawbackOfClosed (escrow : String) (status : EscrowStatus)
  | clawbackAmount (amount pending : Decimal)
  /-- A record with this id is there already. -/
  | duplicateId (id : String)
  | unknownStrategy (name : String)
  /-- A word outside a closed vocabulary. -/
  | unknownWord (word : Json) (vocabulary : String)
  | notAFloat (word : Json)
  | notAWhole (word : Json)
  | wholeOfNaN
  | wholeTooLong (digits : Nat)
  | notATime (text : String) (fault : Time.Fault)
  | malformedJson
  /-- Bytes that are no text in their encoding. -/
  | undecodable (cause : Text.Undecodable)
  /-- A document in which too many brackets are open at once. -/
  | tooDeep
  | missingKey (key : String)
  /-- An operation on a value of the wrong kind. -/
  | wrongKind
  /-- An operation of text on a value that is not text. -/
  | notText
  /-- A field of a value that is no object. -/
  | notAnObject
  /-- An address that cannot be asked for. -/
  | badAddress
  /-- An address that asks for a conversation, not for one reply. -/
  | conversation
  /-- A text with a character that its encoding lacks. -/
  | unencodable
  /-- A document with a number that is not finite, where only finite ones are sent. -/
  | unsendable
  | outOfRange
  | arithmetic (fault : Decimal.Fault)
  /-- A value for a column that cannot be written. -/
  | unwritable
  /-- A row without a value in a column that must have one. -/
  | valueMissing
  /-- A row whose key another one has, and what the database reports of it. -/
  | keyTaken (report : String)
  | storeDown (store : String)
  | interrupted
  deriving Repr

namespace AmountFault

def message (shown : String) : AmountFault → String
  | .notToTheCent => s!"Amount {shown} cannot be represented to the cent"
  | .notFinite => s!"Amount {shown} is not a finite number"

end AmountFault

def PolicyFault.message : PolicyFault → String
  | .geoWithoutPlace => "Geo restriction needs a city or a region"
  | .geoRadius => "Geo radius must be positive"
  | .splitSum spend save => s!"Split rule fractions must sum to 1.0 (got {spend} + {save})"
  | .amountLimit => "Policy amount limit must be positive"
  | .tier n => s!"Enforcement tier must be 1-3 (got {n})"
  | .validity => "Policy validity must be at least one day"
  | .noMilestone => "Escrow needs at least one milestone"
  | .milestoneAmount amount => s!"Milestone amount must be positive (got {amount})"

namespace Failure

/-- As much of a text as the message about a bad whole number shows. -/
def excerpt (text : String) : String := String.ofList (text.toList.take 200)

/-- The text of a failure; empty for the faults of values that have none. -/
def message : Failure → String
  | .intentNotFound id .byId => s!"Intent {id} not found"
  | .intentNotFound id .byKey => s!"intent_id {id} not found"
  | .intentNotFound id (.forUser user) => s!"Intent {id} not found for user {user}"
  | .escrowNotFound id .byKey => s!"escrow_id {id} not found"
  | .escrowNotFound id _ => s!"Escrow {id} not found"
  | .milestoneNotFound milestone escrow => s!"Milestone {milestone} not found on escrow {escrow}"
  | .merchantNotFound id => s!"Merchant {id} not found"
  | .walletNotFound user => s!"No wallet for user {user}"
  | .walletExists user => s!"Wallet already open for user {user}"
  | .registryTimeout seconds => s!"Merchant registry timeout after {seconds}s"
  | .registryStatus code => s!"Merchant registry error: {code}"
  | .registryUnreachable reason => s!"Merchant registry unreachable: {reason}"
  | .registryData cause => "Invalid merchant data from registry: " ++ cause.message
  | .policy fault => fault.message
  | .amount shown fault => fault.message shown
  | .insufficientFunds available required =>
    s!"Insufficient balance. Available: {available}, required: {required}"
  | .releaseBeyondLock released locked user =>
    s!"Cannot release {released}; only {locked} locked for {user}"
  | .creationRejected cause =>
    "Intent creation rejected; funds were not locked: " ++ cause.message
  | .usageOfInactive id status => "Intent " ++ id ++ " is " ++ status.word
  | .cancelOfInactive id status => "Intent " ++ id ++ " is " ++ status.word ++ ", not active"
  | .usageNotPositive used => s!"Usage amount must be positive (got {used})"
  | .usageBeyondRemaining used id remaining =>
    s!"Usage of {used} would overdraw intent {id} (remaining {remaining})"
  | .milestoneCompleted id => s!"Milestone {id} already completed"
  | .proofRequired kind => s!"Proof required: {kind}"
  | .releaseAfterClawback escrow => s!"Escrow {escrow} was clawed back; no further releases"
  | .clawbackOfClosed escrow status =>
    "Escrow " ++ escrow ++ " is " ++ status.word ++ "; clawback not allowed"
  | .clawbackAmount taken pending => s!"Clawback amount {taken} must be within (0, {pending}]"
  | .duplicateId id => s!"Duplicate id {id}"
  | .unknownStrategy name => s!"Unknown intent selection strategy: {name}"
  | .unknownWord word vocabulary => word.quoted ++ " is not a valid " ++ vocabulary
  | .notAFloat word => "could not convert string to float: " ++ word.quoted
  | .notAWhole word => "invalid literal for int() with base 10: " ++ excerpt word.quoted
  | .wholeOfNaN => "cannot convert float NaN to integer"
  | .wholeTooLong digits =>
    s!"Exceeds the limit (4300 digits) for integer string conversion: value has {digits} " ++
      "digits; use sys.set_int_max_str_digits() to increase the limit"
  | .notATime text fault => fault.message (Text.quote text)
  | .undecodable cause => cause.message
  | .missingKey key => Text.quote key
  | .unsendable => "Out of range float values are not JSON compliant"
  | .keyTaken report => report
  | .storeDown store => s!"{store} store down"
  | .malformedJson | .tooDeep | .wrongKind | .notText | .notAnObject | .badAddress | .conversation
  | .unencodable | .outOfRange | .arithmetic _ | .unwritable | .valueMissing | .interrupted => ""

/-- Whether the cause belongs to the domain, so that no service wraps it. -/
def isDomain : Failure → Bool
  | .duplicateId _ | .unknownStrategy _ | .unknownWord _ _ | .notAFloat _ | .notAWhole _
  | .wholeOfNaN | .wholeTooLong _ | .notATime .. | .malformedJson | .undecodable _ | .tooDeep
  | .missingKey _ | .wrongKind | .notText | .notAnObject | .badAddress | .conversation
  | .unencodable | .unsendable | .outOfRange | .arithmetic _ | .unwritable | .valueMissing
  | .keyTaken _ | .storeDown _ | .interrupted => false
  | _ => true

/-- A result of decimal arithmetic, its fault a failure. -/
def ofDecimal {α : Type} (result : Except Decimal.Fault α) : Except Failure α :=
  result.mapError .arithmetic

/-- A look-up whose absence is a failure. -/
def require {α : Type} (failure : Failure) : Option α → Except Failure α
  | some a => .ok a
  | none => .error failure

end Failure

/-- A word of a vocabulary. -/
def Json.toWord {α : Type} (vocabulary : String) (ofWord? : String → Option α) (word : Json) :
    Except Failure α :=
  match word with
  | .text s => Failure.require (.unknownWord word vocabulary) (ofWord? s)
  | _ => .error (.unknownWord word vocabulary)

end Earmark
