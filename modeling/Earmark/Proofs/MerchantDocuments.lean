import Earmark.Merchant.Document
import Earmark.Proofs.Normal

/-!
Merchants written and read again. The document that is written of a merchant has each field in the
form that reading leaves alone, but for the tags, which are normalised once more; normalising them
twice is normalising them once (`normalizeTags_normalizeTags`). So a merchant comes back from its
document, and one reading settles what a document says (`Merchant.documents_round_trip`).
-/

namespace Earmark

/-! ### Tags -/

theorem Text.lower_eq_empty_iff {s : String} : lower s = "" ↔ s = "" := by
  refine ⟨fun empty => ?_, fun empty => by rw [empty]; rfl⟩
  rw [lower, String.ofList_eq_empty_iff] at empty
  rw [← String.toList_eq_nil_iff]
  cases chars : s.toList with
  | nil => rfl
  | cons c rest =>
    rw [chars, lowerChars] at empty
    obtain ⟨none, -⟩ := List.append_eq_nil_iff.mp empty
    split_ifs at none

/-- The common form of a tag is blank only for a blank tag. -/
theorem strip_normalize_eq_empty_iff {tag : String} :
    Text.strip (normalize tag) = "" ↔ Text.strip tag = "" := by
  rw [normalize, Text.strip_lower_strip, Text.lower_eq_empty_iff]

/-- Normal tags stay as they are. -/
theorem normalizeTags_normalizeTags (tags : List String) :
    normalizeTags (normalizeTags tags) = normalizeTags tags := by
  have kept : ∀ tag ∈ normalizeTags tags, Text.strip tag != "" := fun tag mem => by
    obtain ⟨source, filled, rfl⟩ := List.mem_map.mp mem
    simpa [strip_normalize_eq_empty_iff] using (List.mem_filter.mp filled).2
  rw [normalizeTags, List.filter_eq_self.mpr kept, normalizeTags, List.map_map]
  exact List.map_congr_left fun tag _ => normalize_normalize tag

/-- Empty tags make no difference. -/
theorem normalizeTags_filter_ne (tags : List String) :
    normalizeTags (tags.filter (· != "")) = normalizeTags tags := by
  have blank : (fun tag => Text.strip tag != "" && tag != "") = fun tag => Text.strip tag != "" := by
    funext tag
    by_cases empty : tag = ""
    · rw [empty]
      decide
    · simp [empty]
  rw [normalizeTags, List.filter_filter, blank, normalizeTags]

theorem Json.tagTexts_map_text (tags : List String) :
    tagTexts (tags.map .text) = .ok (tags.filter (· != "")) := by
  induction tags with
  | nil => rfl
  | cons tag rest ih =>
    rw [List.map_cons, tagTexts, List.foldr_cons, ← tagTexts, ih]
    by_cases empty : tag = ""
    · simp [truthy, empty]
    · simp [truthy, empty]

namespace Merchant

/-! ### Documents -/

/-- What is read of a written merchant is that merchant, its tags normalised. -/
theorem ofDocument_toDocument (m : Merchant) :
    ofDocument m.toDocument = .ok { m with tags := normalizeTags m.tags } := by
  have category : (Json.text m.category.word).toWord "MerchantCategory" Category.ofWord? =
      .ok m.category := by
    simp [Json.toWord, Category.ofWord?_word, Failure.require]
  simp [ofDocument, toDocument, Json.find?, Failure.require, Json.toFloat, Json.toWhole, Json.shown,
    Json.truthy, Json.members, category, Json.tagTexts_map_text, normalizeTags_filter_ne]

/-- The tags of a merchant that was read are normal. -/
theorem normalizeTags_of_ofDocument {document : Json} {m : Merchant}
    (read : ofDocument document = .ok m) : normalizeTags m.tags = m.tags := by
  cases document with
  | object fields =>
    simp only [ofDocument, bind_ok_iff] at read
    obtain ⟨id, -, name, -, code, -, word, -, category, -, city, -, latitude, -, longitude, -,
      tier, -, riskScore, -, tags, -, read⟩ := read
    cases read
    exact normalizeTags_normalizeTags tags
  | _ => cases read

/-- A merchant with whatever tags it is made with comes back from the document that is written of it,
and so does the merchant that any document is read as. -/
theorem documents_round_trip :
    (∀ (m : Merchant) (tags : List String),
      ofDocument { m with tags := normalizeTags tags }.toDocument =
        .ok { m with tags := normalizeTags tags }) ∧
    ∀ (document : Json) (m : Merchant), ofDocument document = .ok m →
      ofDocument m.toDocument = .ok m := by
  constructor
  · intro m tags
    rw [ofDocument_toDocument, normalizeTags_normalizeTags]
  · intro document m read
    rw [ofDocument_toDocument, normalizeTags_of_ofDocument read]

end Merchant

/-- A document with a number for its code, a text for its tier and tags as they were typed. -/
def Sample.untidyShop : Json :=
  .object
    [("merchant_id", .text "MRC001"), ("name", .text "Bookworm Paradise"), ("mcc", .int 5942),
     ("category", .text "books"), ("city", .text "Chennai"), ("lat", .text " 13.5 "),
     ("lng", .int 80), ("tier", .text "+3"),
     ("product_tags", .array [.text " Novels", .null, .text " ", .text "\u00c9PICES "])]

theorem Merchant.documents_round_trip_untidy :
    ∃ m, ofDocument Sample.untidyShop = .ok m ∧ m.code = "5942" ∧ m.tier = 3 ∧
      m.tags = ["novels", "\u00e9pices"] ∧ ofDocument m.toDocument = .ok m := by
  have told : (ofDocument Sample.untidyShop).toOption.map (fun m => (m.code, m.tier, m.tags)) =
      some ("5942", 3, ["novels", "\u00e9pices"]) := by decide +kernel
  obtain ⟨m, whole, parts⟩ := Option.map_eq_some_iff.mp told
  obtain ⟨code, tier, tags⟩ : m.code = "5942" ∧ m.tier = 3 ∧ m.tags = _ := by
    simpa only [Prod.mk.injEq] using parts
  have read := eq_ok_of_toOption whole
  exact ⟨m, read, code, tier, tags, documents_round_trip.2 _ m read⟩

end Earmark
