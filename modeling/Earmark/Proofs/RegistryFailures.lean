import Earmark.Proofs.Refusals
import Earmark.Registry.Client

/-!
How asking the registry fails. The client reports a reply that is late, missing, refused or no
merchant as a failure of the registry, and only a status of 404 as a merchant that is not there. It
does so by the kind of the fault, and three kinds pass: brackets nested too deep, a number beyond
the floating-point ones, and a tag that is no text (`Client.failures_blamed`).
-/

namespace Earmark

/-- The failure says that the registry did not tell of a merchant. -/
def Failure.isRegistry : Failure → Bool
  | .registryTimeout _ | .registryStatus _ | .registryUnreachable _ | .registryData _ => true
  | _ => false

/-! ### What is read off a value -/

theorem map_error_iff {α β : Type} {f : α → β} {result : Except Failure α} {failure : Failure} :
    f <$> result = .error failure ↔ result = .error failure := by
  cases result <;> simp [Functor.map, Except.map]

namespace Json

variable {value : Json} {items : List Json}

/-- An item that counts, and is no text. -/
def IsStrayTag (item : Json) : Prop :=
  item.truthy = true ∧ (∀ s, item ≠ .text s) ∧ ∀ points, item ≠ .unpaired points

/-- A whole number beyond the floating-point ones. -/
def IsBeyondFloats (value : Json) : Prop :=
  ∃ n neg, value = .int n ∧ Binary64.ofInt n = .infinity neg

theorem onlyFails_toFloat (value : Json) :
    OnlyFails (fun f => Registry.isDataFault f = true ∨ f = .outOfRange ∧ value.IsBeyondFloats)
      value.toFloat := by
  cases value with
  | float x => exact onlyFails_ok x
  | bool b => exact onlyFails_ok _
  | text s => exact onlyFails_require (.inl rfl) _
  | int n =>
    cases rounded : Binary64.ofInt n with
    | infinity neg =>
      simp only [toFloat, rounded]
      exact onlyFails_error (.inr ⟨rfl, n, neg, rfl, rounded⟩)
    | finite neg m e => simpa only [toFloat, rounded] using onlyFails_ok _
    | nan => simpa only [toFloat, rounded] using onlyFails_ok _
  | null | unpaired | array | object => exact onlyFails_error (.inl rfl)

theorem onlyFails_toWhole (value : Json) :
    OnlyFails (fun f => Registry.isDataFault f = true ∨
      f = .outOfRange ∧ ∃ neg, value = .float (.infinity neg)) value.toWhole := by
  cases value with
  | int n => exact onlyFails_ok n
  | bool b => exact onlyFails_ok _
  | float x =>
    cases x with
    | finite neg m e => exact onlyFails_ok _
    | infinity neg => exact onlyFails_error (.inr ⟨rfl, neg, rfl⟩)
    | nan => exact onlyFails_error (.inl rfl)
  | text s =>
    cases digits : Text.wholeDigits? s with
    | none =>
      simp only [toWhole, digits]
      exact onlyFails_error (.inl rfl)
    | some written =>
      simp only [toWhole, digits]
      exact onlyFails_ite (onlyFails_error (.inl rfl)) (onlyFails_ok _)
  | null | unpaired | array | object => exact onlyFails_error (.inl rfl)

/-- Only a list has members that are no texts. -/
theorem eq_array_of_members {members : List Json} (read : value.members = .ok members) {item : Json}
    (mem : item ∈ members) (other : ∀ s, item ≠ .text s) : value = .array members := by
  cases value with
  | array items => cases read; rfl
  | text s =>
    cases read
    obtain ⟨c, -, rfl⟩ := List.mem_map.mp mem
    exact (other _ rfl).elim
  | unpaired points =>
    cases read
    obtain ⟨point, -, rfl⟩ := List.mem_map.mp mem
    exact (other _ rfl).elim
  | object fields =>
    cases read
    obtain ⟨field, -, rfl⟩ := List.mem_map.mp mem
    exact (other _ rfl).elim
  | null | bool | int | float => cases read

theorem onlyFails_members (value : Json) :
    OnlyFails (fun f => Registry.isDataFault f = true) value.members := by
  cases value with
  | array | text | unpaired | object => exact onlyFails_ok _
  | null | bool | int | float => exact onlyFails_error rfl

theorem tagTexts_cons_blank {item : Json} (blank : item.truthy = false) :
    tagTexts (item :: items) = tagTexts items := by
  simp [tagTexts, blank]

theorem tagTexts_cons_stray {item : Json} (stray : item.IsStrayTag) :
    tagTexts (item :: items) = .error .notText := by
  obtain ⟨truthy, text, unpaired⟩ := stray
  cases item with
  | text s => exact (text s rfl).elim
  | unpaired points => exact (unpaired points rfl).elim
  | null | bool | int | float | array | object => simp [tagTexts, truthy]

theorem tagTexts_cons {item : Json} (truthy : item.truthy = true) (sound : ¬item.IsStrayTag) :
    ∃ s, tagTexts (item :: items) = (s :: ·) <$> tagTexts items := by
  cases item with
  | text s => exact ⟨s, by simp [tagTexts, truthy]⟩
  | unpaired points => exact ⟨_, by simp [tagTexts, truthy]; rfl⟩
  | null | bool | int | float | array | object => exact (sound ⟨truthy, by simp, by simp⟩).elim

/-- Tags are read unless one of them is stray. -/
theorem tagTexts_error_iff {failure : Failure} :
    tagTexts items = .error failure ↔ failure = .notText ∧ ∃ item ∈ items, item.IsStrayTag := by
  induction items with
  | nil => simp [tagTexts]
  | cons item rest ih =>
    rw [List.exists_mem_cons_iff]
    by_cases stray : item.IsStrayTag
    · simp [tagTexts_cons_stray stray, stray, eq_comm]
    · cases truthy : item.truthy with
      | false => simp [tagTexts_cons_blank truthy, ih, stray]
      | true =>
        obtain ⟨s, read⟩ : ∃ s, tagTexts (item :: rest) = (s :: ·) <$> tagTexts rest :=
          tagTexts_cons truthy stray
        simp [read, map_error_iff, ih, stray]

theorem find?_insert (key other : String) (value : Json) (fields : List (String × Json)) :
    find? other (insert key value fields) =
      if other = key then some value else find? other fields := by
  cases listed : fields.any (·.1 == key) with
  | false =>
    have missing : fields.find? (·.1 == key) = none := by
      simpa [List.find?_eq_none] using listed
    rw [insert, if_neg (by simp [listed]), find?, List.find?_append]
    split_ifs with same
    · simp [same, missing]
    · have apart : ¬key = other := fun equal => same equal.symm
      simp [apart, find?]
  | true =>
    rw [insert, if_pos listed, find?, List.find?_map]
    have sameKeys : ((fun field : String × Json => field.1 == other) ∘
        fun field => if field.1 == key then (key, value) else field) =
        fun field => field.1 == other := by
      funext field
      by_cases known : field.1 = key <;> simp [known]
    rw [sameKeys, find?]
    split_ifs with same
    · obtain ⟨field, mem, known⟩ := List.any_eq_true.mp listed
      subst same
      cases found : fields.find? (·.1 == other) with
      | none => exact (List.find?_eq_none.mp found field mem known).elim
      | some field =>
        have key : field.1 = other := by simpa using List.find?_some found
        simp [key]
    · cases found : fields.find? (·.1 == other) with
      | none => rfl
      | some field =>
        have key : field.1 = other := by simpa using List.find?_some found
        simp [key, same]

end Json

/-! ### What is read off a document -/

/-- What of a merchant's document is read with a fault that is not laid to the data. -/
inductive Merchant.Strays : Json → Failure → Prop
  | number {fields : List (String × Json)} {key : String} {value : Json}
      (asked : key ∈ ["lat", "lng", "risk_score"]) (found : Json.find? key fields = some value)
      (beyond : value.IsBeyondFloats) : Strays (.object fields) .outOfRange
  | tier {fields : List (String × Json)} {neg : Bool}
      (found : Json.find? "tier" fields = some (.float (.infinity neg))) :
      Strays (.object fields) .outOfRange
  | tag {fields : List (String × Json)} {items : List Json} {item : Json}
      (found : Json.find? "product_tags" fields = some (.array items)) (mem : item ∈ items)
      (stray : item.IsStrayTag) : Strays (.object fields) .notText

/-- What of a list of merchants is read with a fault that is not laid to the data. -/
inductive Registry.StraysInList : Json → Failure → Prop
  | notAnObject {document : Json} (other : ∀ fields, document ≠ .object fields) :
      StraysInList document .notAnObject
  | merchant {fields : List (String × Json)} {items : List Json} {item : Json} {failure : Failure}
      (found : Json.find? "merchants" fields = some (.array items)) (mem : item ∈ items)
      (stray : Merchant.Strays item failure) : StraysInList (.object fields) failure

/-- A fault of the data, or one that the document brings and that passes for none. -/
def Registry.IsReadFault (strays : Failure → Prop) (failure : Failure) : Prop :=
  isDataFault failure = true ∨ strays failure

open Registry (IsReadFault)

theorem OnlyFails.data {α : Type} {result : Except Failure α} {strays : Failure → Prop}
    (only : OnlyFails (fun f => Registry.isDataFault f = true) result) :
    OnlyFails (IsReadFault strays) result := fun failure failed => .inl (only failure failed)

namespace Merchant

variable {fields : List (String × Json)}

theorem onlyFails_given (key : String) :
    OnlyFails (IsReadFault (Strays (.object fields)))
      (Failure.require (.missingKey key) (Json.find? key fields)) :=
  onlyFails_require (.inl rfl) _

theorem onlyFails_word (word : Json) :
    OnlyFails (IsReadFault (Strays (.object fields)))
      (word.toWord "MerchantCategory" Category.ofWord?) := by
  cases word with
  | text s => exact onlyFails_require (.inl rfl) _
  | _ => exact onlyFails_error (.inl rfl)

theorem onlyFails_float {key : String} (asked : key ∈ ["lat", "lng", "risk_score"]) {value : Json}
    (found : Json.find? key fields = some value) :
    OnlyFails (IsReadFault (Strays (.object fields))) value.toFloat := fun failure failed =>
  (Json.onlyFails_toFloat value failure failed).imp_right fun ⟨same, beyond⟩ =>
    same ▸ .number asked found beyond

theorem onlyFails_tier {value : Json} (found : Json.find? "tier" fields = some value) :
    OnlyFails (IsReadFault (Strays (.object fields))) value.toWhole := fun failure failed =>
  (Json.onlyFails_toWhole value failure failed).imp_right fun ⟨same, _, infinite⟩ =>
    same ▸ .tier (infinite ▸ found)

theorem onlyFails_riskScore :
    OnlyFails (IsReadFault (Strays (.object fields)))
      ((Json.find? "risk_score" fields).getD (.float .zero)).toFloat := by
  cases found : Json.find? "risk_score" fields with
  | none => exact onlyFails_ok _
  | some value => exact onlyFails_float (by simp) found

theorem onlyFails_tags :
    OnlyFails (IsReadFault (Strays (.object fields)))
      (((Json.find? "product_tags" fields).getD (.array [])).members >>= Json.tagTexts) := by
  refine onlyFails_bind (Json.onlyFails_members _).data fun members read failure failed => .inr ?_
  obtain ⟨rfl, item, mem, stray⟩ := Json.tagTexts_error_iff.mp failed
  have listed := Json.eq_array_of_members read mem stray.2.1
  cases found : Json.find? "product_tags" fields with
  | none =>
    rw [found] at listed
    cases listed
    cases mem
  | some value =>
    rw [found] at listed
    exact .tag (listed ▸ found) mem stray

/-- A document that brings no merchant has a fault in its data, or a number or a tag that strays. -/
theorem onlyFails_ofDocument (document : Json) :
    OnlyFails (IsReadFault (Strays document)) (ofDocument document) := by
  cases document with
  | object fields =>
    simp only [ofDocument]
    refine onlyFails_bind (onlyFails_given _) fun id _ => ?_
    refine onlyFails_bind (onlyFails_given _) fun name _ => ?_
    refine onlyFails_bind (onlyFails_given _) fun code _ => ?_
    refine onlyFails_bind (onlyFails_given _) fun word _ => ?_
    refine onlyFails_bind (onlyFails_word word) fun category _ => ?_
    refine onlyFails_bind (onlyFails_given _) fun city _ => ?_
    refine onlyFails_bind (onlyFails_bind (onlyFails_given _) fun value given => onlyFails_float
      (by simp) (Failure.require_ok_iff.mp given)) fun latitude _ => ?_
    refine onlyFails_bind (onlyFails_bind (onlyFails_given _) fun value given => onlyFails_float
      (by simp) (Failure.require_ok_iff.mp given)) fun longitude _ => ?_
    refine onlyFails_bind (onlyFails_bind (onlyFails_given _) fun value given => onlyFails_tier
      (Failure.require_ok_iff.mp given)) fun tier _ => ?_
    refine onlyFails_bind onlyFails_riskScore fun riskScore _ => ?_
    exact onlyFails_bind onlyFails_tags fun tags _ => onlyFails_ok _
  | _ => exact onlyFails_error (.inl rfl)

/-- One tag that is no text keeps the document of a merchant from being read. -/
theorem ofDocument_stray_tag {items : List Json} {item : Json} {m : Merchant}
    (sound : ofDocument (.object fields) = .ok m) (mem : item ∈ items) (stray : item.IsStrayTag) :
    ofDocument (.object (Json.insert "product_tags" (.array items) fields)) = .error .notText := by
  have unread : Json.tagTexts items = .error .notText :=
    Json.tagTexts_error_iff.mpr ⟨rfl, item, mem, stray⟩
  simp only [ofDocument, bind_ok_iff, Failure.require_ok_iff] at sound
  obtain ⟨id, hasId, name, hasName, code, hasCode, word, hasWord, category, known, city, hasCity,
    latitude, ⟨north, hasNorth, latitude_ok⟩, longitude, ⟨east, hasEast, longitude_ok⟩,
    tier, ⟨level, hasLevel, tier_ok⟩, riskScore, risk_ok, -⟩ := sound
  simp only [ofDocument, Json.find?_insert, String.reduceEq, ↓reduceIte, Failure.require, ok_bind,
    hasId, hasName, hasCode, hasWord, known, hasCity, hasNorth, latitude_ok, hasEast, longitude_ok,
    hasLevel, tier_ok, risk_ok, Option.getD_some, Json.members, unread, error_bind]

end Merchant

theorem onlyFails_mapM_list {α β : Type} {kind : Failure → Prop} {f : α → Except Failure β}
    {items : List α} (fails : ∀ item ∈ items, OnlyFails kind (f item)) :
    OnlyFails kind (items.mapM f) := by
  induction items with
  | nil => exact onlyFails_ok []
  | cons item rest ih =>
    rw [List.mapM_cons]
    refine onlyFails_bind (fails item (by simp)) fun _ _ => ?_
    exact onlyFails_bind (ih fun other mem => fails other (by simp [mem])) fun _ _ => onlyFails_ok _

/-! ### What comes of asking -/

/-- A path that begins with a slash names no scheme. -/
theorem Http.Address.scheme_slash (rest : List Char) : (ofChars ('/' :: rest)).scheme = [] := by
  have taken : takeScheme ('/' :: rest) = ([], '/' :: rest) := by
    simp [takeScheme, isSchemeChar]
  simp only [ofChars, taken]

theorem Http.Address.ofText_error {below : String} {failure : Failure}
    (failed : ofText ("/merchants" ++ below) = .error failure) : failure = .badAddress := by
  have slash : ("/merchants" ++ below).toList = '/' :: ("merchants" ++ below).toList := by
    simp [String.toList_append]
  simp only [ofText, slash, scheme_slash, true_or, ↓reduceIte] at failed
  split_ifs at failed
  cases failed
  rfl

namespace Registry

/-- A document that brings no list of merchants is no object, or has a fault in its data, or a
merchant of it strays. -/
theorem onlyFails_merchantsOf (document : Json) :
    OnlyFails (IsReadFault (StraysInList document)) (Client.merchantsOf document) := by
  cases document with
  | object fields =>
    simp only [Client.merchantsOf]
    refine onlyFails_bind (Json.onlyFails_members _).data fun members read => ?_
    refine onlyFails_mapM_list fun item mem failure failed => ?_
    refine (Merchant.onlyFails_ofDocument item failure failed).imp_right fun strays => ?_
    have listed := Json.eq_array_of_members read mem fun s same => by
      rw [same] at strays
      cases strays
    cases found : Json.find? "merchants" fields with
    | none =>
      rw [found] at listed
      cases listed
      cases mem
    | some value =>
      rw [found] at listed
      exact .merchant (listed ▸ found) mem strays
  | _ => exact onlyFails_error (.inr (.notAnObject (by simp)))

namespace Client

variable {c : Client} {path : String} {strays : Json → Failure → Prop} {failure : Failure}

/-- The registry answers with the status and the content when it is asked for a path. -/
def Answers (c : Client) (path : String) (status : Int) (content : Http.Content) : Prop :=
  ∃ address, Http.Address.ofText path = .ok address ∧
    c.ask address.plainPath = .answered status content

/-- What passes when a path is asked for: a path that is no address, a reply with brackets that are
nested too deep, and what strays in the document of a reply. -/
inductive Passes (c : Client) (path : String) (strays : Json → Failure → Prop) : Failure → Prop
  | address (bad : Http.Address.ofText path = .error .badAddress) : Passes c path strays .badAddress
  | depth {status : Int} {content : Http.Content} (answers : c.Answers path status content)
      (success : 200 ≤ status ∧ status < 300) (deep : content.read = .error .tooDeep) :
      Passes c path strays .tooDeep
  | document {status : Int} {content : Http.Content} {document : Json} {failure : Failure}
      (answers : c.Answers path status content) (success : 200 ≤ status ∧ status < 300)
      (read : content.read = .ok document) (stray : strays document failure) :
      Passes c path strays failure

theorem answers_of_fetch {status : Int} {content : Http.Content}
    (fetched : c.fetch path = .ok (status, content)) : c.Answers path status content := by
  obtain ⟨address, read, asked⟩ := bind_ok_iff.mp fetched
  refine ⟨address, read, ?_⟩
  cases reply : c.ask address.plainPath <;> rw [reply] at asked <;> cases asked
  rfl

theorem Answers.fetch {status : Int} {content : Http.Content}
    (answers : c.Answers path status content) : c.fetch path = .ok (status, content) := by
  obtain ⟨address, read, asked⟩ := answers
  simp only [Client.fetch, read, ok_bind, asked]

/-- Below the path of the merchants nothing but an address that cannot be asked for keeps the
registry from being asked. -/
theorem onlyFails_fetch (asks : ∀ path failure, c.ask path ≠ .failed failure) (below : String) :
    OnlyFails (fun f => f.isRegistry = true ∨ c.Passes ("/merchants" ++ below) strays f)
      (c.fetch ("/merchants" ++ below)) := by
  refine onlyFails_bind (fun failure failed => ?_) fun address _ => ?_
  · obtain rfl := Http.Address.ofText_error failed
    exact .inr (.address failed)
  · cases reply : c.ask address.plainPath with
    | answered status content => exact onlyFails_ok _
    | timedOut => exact onlyFails_error (.inl rfl)
    | unreachable reason => exact onlyFails_error (.inl rfl)
    | failed failure => exact (asks _ failure reply).elim

theorem documentOf_ok_iff {content : Http.Content} {document : Json} :
    documentOf content = .ok document ↔ content.read = .ok document := by
  cases read : content.read with
  | ok other => simp [documentOf, read]
  | error fault => cases fault <;> simp [documentOf, read]

theorem onlyFails_documentOf (content : Http.Content) :
    OnlyFails (fun f => isDataFault f = true ∨ f = .tooDeep ∧ content.read = .error .tooDeep)
      (documentOf content) := by
  cases read : content.read with
  | ok document =>
    rw [documentOf_ok_iff.mpr read]
    exact onlyFails_ok document
  | error fault =>
    cases fault with
    | tooDeep =>
      simp only [documentOf, read]
      exact onlyFails_error (.inr ⟨rfl, trivial⟩)
    | malformed | tooManyDigits | undecodable =>
      simp only [documentOf, read]
      exact onlyFails_error (.inl rfl)

theorem onlyFails_blame {α : Type} {passes : Failure → Prop} {result : Except Failure α}
    (only : OnlyFails (IsReadFault passes) result) :
    OnlyFails (fun f => f.isRegistry = true ∨ passes f) (blame result) := by
  cases result with
  | ok a => exact onlyFails_ok a
  | error failure =>
    refine onlyFails_error ?_
    split_ifs with fault
    · exact .inl rfl
    · exact .inr ((only failure rfl).resolve_left fault)

theorem onlyFails_readReply {α : Type} {status : Int} {content : Http.Content}
    {read : Json → Except Failure α} (answers : c.Answers path status content)
    (only : ∀ document, OnlyFails (IsReadFault (strays document)) (read document)) :
    OnlyFails (fun f => f.isRegistry = true ∨ c.Passes path strays f)
      (readReply status content read) := by
  rw [readReply]
  split_ifs with success
  · refine onlyFails_blame (onlyFails_bind (fun failure failed => ?_) fun document done => ?_)
    · refine (onlyFails_documentOf content failure failed).imp_right fun ⟨same, deep⟩ => ?_
      exact same ▸ .depth answers success deep
    · intro failure failed
      refine (only document failure failed).imp_right fun stray => ?_
      exact .document answers success (documentOf_ok_iff.mp done) stray
  · exact onlyFails_error (.inl rfl)

theorem not_passes_merchantNotFound {id : String} :
    ¬c.Passes path Merchant.Strays (.merchantNotFound id) := by
  rintro ⟨⟩
  rename_i stray
  cases stray

/-- What is read off a successful reply. -/
theorem readReply_of_document {α : Type} {status : Int} {content : Http.Content}
    {read : Json → Except Failure α} {document : Json} {failure : Failure}
    (success : 200 ≤ status ∧ status < 300) (holds : content.read = .ok document)
    (failed : read document = .error failure) (passes : isDataFault failure = false) :
    readReply status content read = .error failure := by
  rw [readReply, if_pos success, documentOf_ok_iff.mpr holds, ok_bind, failed, blame]
  simp [passes]

theorem get_of_answers {id : String} {status : Int} {content : Http.Content}
    (answers : c.Answers ("/merchants/" ++ id) status content)
    (success : 200 ≤ status ∧ status < 300) :
    c.get id = readReply status content Merchant.ofDocument := by
  rw [Client.get, answers.fetch, ok_bind]
  exact if_neg (by omega)

theorem onlyFails_get (asks : ∀ path failure, c.ask path ≠ .failed failure) (id : String) :
    OnlyFails (fun f => f = .merchantNotFound id ∧
        (∃ content, c.Answers ("/merchants/" ++ id) 404 content) ∨
      f.isRegistry = true ∨ c.Passes ("/merchants/" ++ id) Merchant.Strays f) (c.get id) := by
  have below : "/merchants/" ++ id = "/merchants" ++ ("/" ++ id) := by
    rw [← String.append_assoc]
    rfl
  refine onlyFails_bind (fun failure failed => ?_) fun ⟨status, content⟩ fetched => ?_
  · rw [below] at failed ⊢
    exact .inr (onlyFails_fetch asks _ failure failed)
  · have answers := answers_of_fetch fetched
    dsimp only
    split_ifs with missing
    · exact onlyFails_error (.inl ⟨rfl, content, missing ▸ answers⟩)
    · intro failure failed
      exact .inr (onlyFails_readReply answers Merchant.onlyFails_ofDocument failure failed)

theorem onlyFails_listAll (asks : ∀ path failure, c.ask path ≠ .failed failure) :
    OnlyFails (fun f => f.isRegistry = true ∨ c.Passes "/merchants" StraysInList f) c.listAll := by
  refine onlyFails_bind (onlyFails_fetch asks "") fun ⟨status, content⟩ fetched => ?_
  exact onlyFails_readReply (answers_of_fetch fetched) onlyFails_merchantsOf

/-- A merchant is said not to be there exactly if the status is 404, and other failures are the
registry's, apart from what passes: a path that cannot be asked for, brackets that are nested too
deep, a number beyond the floating-point ones, a tag that is no text, and where merchants are listed
a document that is no object. However sound the rest of a document is, one tag that is no text
passes, and so do the brackets and, of a list, the document that is none. -/
theorem failures_blamed (asks : ∀ path failure, c.ask path ≠ .failed failure) :
    (∀ id other, c.get id = .error (.merchantNotFound other) ↔
      other = id ∧ ∃ content, c.Answers ("/merchants/" ++ id) 404 content) ∧
    (∀ id failure, c.get id = .error failure → failure = .merchantNotFound id ∨
      failure.isRegistry = true ∨ c.Passes ("/merchants/" ++ id) Merchant.Strays failure) ∧
    (∀ failure, c.listAll = .error failure →
      failure.isRegistry = true ∨ c.Passes "/merchants" StraysInList failure) ∧
    (∀ id status content, c.Answers ("/merchants/" ++ id) status content →
      200 ≤ status ∧ status < 300 →
      (content.read = .error .tooDeep → c.get id = .error .tooDeep) ∧
      ∀ fields items item m, Merchant.ofDocument (.object fields) = .ok m → item ∈ items →
        item.IsStrayTag →
        content.read = .ok (.object (Json.insert "product_tags" (.array items) fields)) →
        c.get id = .error .notText) ∧
    ∀ status content document, c.Answers "/merchants" status content →
      200 ≤ status ∧ status < 300 → content.read = .ok document →
      (∀ fields, document ≠ .object fields) → c.listAll = .error .notAnObject := by
  refine ⟨fun id other => ⟨fun failed => ?_, ?_⟩, fun id failure failed => ?_,
    onlyFails_listAll asks, fun id status content answers success => ⟨fun deep => ?_, ?_⟩, ?_⟩
  · rcases onlyFails_get asks id _ failed with ⟨same, answers⟩ | registry | passes
    · exact ⟨by simpa using same, answers⟩
    · cases registry
    · exact (not_passes_merchantNotFound passes).elim
  · rintro ⟨rfl, content, answers⟩
    rw [Client.get, answers.fetch, ok_bind]
    exact if_pos rfl
  · exact (onlyFails_get asks id failure failed).imp_left And.left
  · rw [get_of_answers answers success, readReply, if_pos success, documentOf, deep]
    rfl
  · intro fields items item m sound mem stray holds
    rw [get_of_answers answers success]
    exact readReply_of_document success holds (Merchant.ofDocument_stray_tag sound mem stray) rfl
  · intro status content document answers success holds other
    rw [listAll, answers.fetch, ok_bind]
    refine readReply_of_document success holds ?_ rfl
    cases document with
    | object fields => exact (other fields rfl).elim
    | _ => rfl

end Client

namespace Sample

/-- The fields of a bookshop's document. -/
def bookshop : List (String × Json) :=
  [("merchant_id", .text "MRC001"), ("name", .text "Bookworm Paradise"), ("mcc", .text "5942"),
   ("category", .text "books"), ("city", .text "Chennai"), ("lat", .int 13), ("lng", .int 80),
   ("tier", .int 1)]

/-- A registry that knows the bookshop, with a number for a tag, under every id. -/
def mistagged : Client where
  ask _ := .answered 200
    (.document (.object (Json.insert "product_tags" (.array [.int 5]) bookshop)))

theorem mistagged_asks (path : String) (failure : Failure) :
    mistagged.ask path ≠ .failed failure := by simp [mistagged]

theorem mistagged_answers : mistagged.Answers "/merchants/MRC001" 200
    (.document (.object (Json.insert "product_tags" (.array [.int 5]) bookshop))) := by
  have plain : (Http.Address.ofText "/merchants/MRC001").toOption.isSome = true := by
    decide +kernel
  obtain ⟨address, read⟩ := Option.isSome_iff_exists.mp plain
  exact ⟨address, eq_ok_of_toOption read, rfl⟩

theorem exists_bookshop : ∃ m, Merchant.ofDocument (.object bookshop) = .ok m := by
  have whole : (Merchant.ofDocument (.object bookshop)).toOption.isSome = true := by
    decide +kernel
  obtain ⟨m, read⟩ := Option.isSome_iff_exists.mp whole
  exact ⟨m, eq_ok_of_toOption read⟩

theorem isStrayTag_five : (Json.int 5).IsStrayTag := ⟨rfl, by simp, by simp⟩

end Sample

theorem Client.failures_blamed_mistagged :
    Client.get Sample.mistagged "MRC001" = .error .notText ∧ Failure.isRegistry .notText = false ∧
      ∀ other, Client.get Sample.mistagged "MRC001" ≠ .error (.merchantNotFound other) := by
  obtain ⟨notFound, -, -, passes, -⟩ := Client.failures_blamed Sample.mistagged_asks
  obtain ⟨m, sound⟩ := Sample.exists_bookshop
  have escapes : Client.get Sample.mistagged "MRC001" = .error .notText :=
    (passes "MRC001" 200 _ Sample.mistagged_answers (by decide)).2 Sample.bookshop [.int 5] (.int 5) m sound
      (by simp) Sample.isStrayTag_five rfl
  refine ⟨escapes, rfl, fun other missing => ?_⟩
  obtain ⟨-, content, address, -, answered⟩ := (notFound "MRC001" other).mp missing
  simp [Sample.mistagged] at answered

/-- A tag that is no text is reported neither as a failure of the registry nor as a merchant that is
not there. -/
theorem Client.failures_not_all_blamed :
    ¬∀ (c : Client) (id : String) (failure : Failure),
      (∀ path other, c.ask path ≠ .failed other) → c.get id = .error failure →
        failure.isRegistry = true ∨ failure = .merchantNotFound id := by
  intro blamed
  obtain ⟨m, sound⟩ := Sample.exists_bookshop
  have escapes : Client.get Sample.mistagged "MRC001" = .error .notText := by
    rw [Client.get_of_answers Sample.mistagged_answers (by decide)]
    exact Client.readReply_of_document (by decide) rfl
      (Merchant.ofDocument_stray_tag sound (by simp) Sample.isStrayTag_five) rfl
  rcases blamed _ _ _ Sample.mistagged_asks escapes with registry | missing
  · cases registry
  · cases missing

end Registry

end Earmark
