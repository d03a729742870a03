import Agenda.Cache.ReadThrough
import Agenda.Proofs.Hash.Hex
import Agenda.Proofs.Needs.Params
import Agenda.Proofs.Ranked

/-!
Keys and what they are derived from. As long as no two of the hashed texts share a digest, two keys
are equal exactly when user, kind, purpose, token and the set of contexts are, and the parameters
are alike.
-/

namespace Agenda

namespace Text

theorem intercalate_injective (separator : Char) {joiner : String} {left right : List String}
    (single : joiner.toList = [separator]) (leftClean : ∀ text ∈ left, separator ∉ text.toList)
    (rightClean : ∀ text ∈ right, separator ∉ text.toList) (leftFilled : left ≠ [])
    (rightFilled : right ≠ []) (same : joiner.intercalate left = joiner.intercalate right) :
    left = right := by
  have split {texts : List String} (clean : ∀ text ∈ texts, separator ∉ text.toList)
      (filled : texts ≠ []) :
      (joiner.intercalate texts).toList.splitOn separator = texts.map String.toList := by
    rw [String.toList_intercalate, single]
    apply List.splitOn_intercalate
    · simpa using clean
    · simpa using filled
  have parts := split leftClean leftFilled
  rw [same, split rightClean rightFilled] at parts
  exact List.map_injective_iff.mpr (fun _ _ => String.toList_inj.mp) parts.symm

theorem skipBlanks_eq_self {text : List Char} (starts : ∀ first ∈ text.head?, isBlank first = false) :
    skipBlanks text = text := by
  cases text with
  | nil => rfl
  | cons first rest => exact skipBlanks_cons (starts first rfl) rest

theorem trim_eq_self {text : String} (starts : ∀ first ∈ text.toList.head?, isBlank first = false)
    (ends : ∀ last ∈ text.toList.getLast?, isBlank last = false) : trim text = text := by
  rw [trim, skipBlanks_eq_self starts, skipBlanks_eq_self (by simpa using ends),
    List.reverse_reverse, String.ofList_toList]

end Text

namespace GlobalId

theorem text_injective {left right : GlobalId} (same : left.text = right.text) : left = right := by
  have values := Int.repr_injective same
  cases left
  cases right
  simpa using values

theorem not_mem_text {character : Char} (notSign : character ≠ '-')
    (notDigit : Text.isDigit character = false) (id : GlobalId) :
    character ∉ id.text.toList := by
  intro member
  rcases Text.mem_toString_int member with sign | digit
  · exact notSign sign
  · rw [notDigit] at digit
    cases digit

end GlobalId

theorem Id.text_injective {entity : Entity} {left right : Id entity} (same : left.text = right.text) :
    left = right := by
  have globals := GlobalId.text_injective same
  cases left
  cases right
  simpa using globals

namespace Context

theorem assetText_injective {left right : Context} (same : left.assetText = right.assetText) :
    left = right := by
  cases left with
  | course id =>
      cases right with
      | course other => exact congrArg course (Id.text_injective ((String.append_right_inj _).mp same))
      | group other => simp [assetText, String.ext_iff] at same
  | group id =>
      cases right with
      | course other => simp [assetText, String.ext_iff] at same
      | group other => exact congrArg group (Id.text_injective ((String.append_right_inj _).mp same))

theorem comma_not_mem_assetText (context : Context) : ',' ∉ context.assetText.toList := by
  have number (id : GlobalId) : ',' ∉ id.text.toList := id.not_mem_text (by decide) rfl
  cases context with
  | course id =>
      rw [assetText, String.toList_append, List.mem_append, not_or]
      exact ⟨by decide, number id.global⟩
  | group id =>
      rw [assetText, String.toList_append, List.mem_append, not_or]
      exact ⟨by decide, number id.global⟩

theorem assetText_ne_empty (context : Context) : context.assetText ≠ "" := by
  cases context with
  | course id => simp [assetText, String.ext_iff]
  | group id => simp [assetText, String.ext_iff]

end Context

def contextText (contexts : List Context) : String :=
  ",".intercalate ((sortedDistinct contexts).map Context.assetText)

theorem intercalate_assetTexts_injective {left right : List Context}
    (same : ",".intercalate (left.map Context.assetText) =
      ",".intercalate (right.map Context.assetText)) : left = right := by
  have clean (contexts : List Context) :
      ∀ text ∈ contexts.map Context.assetText, ',' ∉ text.toList := by
    intro text member
    obtain ⟨context, -, rfl⟩ := List.mem_map.mp member
    exact context.comma_not_mem_assetText
  have nonempty (context : Context) (rest : List Context) :
      ",".intercalate ((context :: rest).map Context.assetText) ≠ "" := by
    cases rest with
    | nil => simpa using context.assetText_ne_empty
    | cons other others =>
        rw [List.map_cons, String.intercalate_cons_of_ne_nil (by simp)]
        simp [context.assetText_ne_empty]
  cases left with
  | nil =>
      cases right with
      | nil => rfl
      | cons context rest => exact absurd same.symm (nonempty context rest)
  | cons context rest =>
      cases right with
      | nil => exact absurd same (nonempty context rest)
      | cons other others =>
          have texts := Text.intercalate_injective ',' rfl (clean _) (clean _)
            (by simp) (by simp) same
          exact List.map_injective_iff.mpr (fun _ _ => Context.assetText_injective) texts

theorem contextText_eq_iff {left right : List Context} :
    contextText left = contextText right ↔ ∀ context, context ∈ left ↔ context ∈ right := by
  rw [← Ranked.sortedDistinct_eq_iff]
  constructor
  · exact intercalate_assetTexts_injective
  · intro same
    rw [contextText, contextText, same]

namespace ObjectKind

/-- Kind and purpose are told from their joined names, although some names contain the mark between
them. -/
theorem namespaceText_injective {left right : ObjectKind} {purpose other : Purpose}
    (same : left.namespaceText purpose = right.namespaceText other) :
    left = right ∧ purpose = other := by
  -- No splitting helps where a name contains the mark, but there are few pairs.
  let pairs : List (ObjectKind × Purpose) := Vocabulary.all ×ˢ Vocabulary.all
  have distinct : (pairs.map fun pair => pair.1.namespaceText pair.2).Nodup := by decide
  have listed (kind : ObjectKind) (purpose : Purpose) : (kind, purpose) ∈ pairs :=
    List.mem_product.mpr ⟨Vocabulary.mem_all kind, Vocabulary.mem_all purpose⟩
  exact Prod.ext_iff.mp
    (List.inj_on_of_nodup_map distinct (listed left purpose) (listed right other) same)

theorem slash_not_mem_namespaceText (kind : ObjectKind) (purpose : Purpose) :
    '/' ∉ (kind.namespaceText purpose).toList := by
  cases kind <;> cases purpose <;> decide

end ObjectKind

theorem BatchToken.text_injective {left right : BatchToken} (same : left.text = right.text) :
    left = right := by
  have values := UInt64.toNat_inj.mp (Nat.repr_injective same)
  cases left
  cases right
  simpa using values

namespace CacheKeyParts

def hashedTexts (parts : CacheKeyParts) : List String :=
  [contextText parts.contexts, parts.params.canonical.text, parts.material]

def materialParts (parts : CacheKeyParts) : List String :=
  [parts.user.text, parts.kind.namespaceText parts.purpose, (contextDigest parts.contexts).hex,
    parts.params.digest.hex, parts.token.text]

theorem slash_not_mem_materialParts (parts : CacheKeyParts) :
    ∀ text ∈ parts.materialParts, '/' ∉ text.toList := by
  have digest (state : Sha256) : '/' ∉ state.hex.toList := fun member => by
    have digit := Sha256.mem_hexDigits_of_mem_hex member
    revert digit
    decide
  have token : '/' ∉ parts.token.text.toList := fun member => by
    have digit := Text.isDigit_of_mem_toDigits (by simpa [BatchToken.text] using member)
    cases digit
  simp only [materialParts, List.forall_mem_cons]
  exact ⟨parts.user.global.not_mem_text (by decide) rfl,
    parts.kind.slash_not_mem_namespaceText parts.purpose, digest _, digest _, token, by simp⟩

theorem materialParts_injective {left right : CacheKeyParts}
    (same : left.material = right.material) : left.materialParts = right.materialParts :=
  Text.intercalate_injective '/' rfl left.slash_not_mem_materialParts
    right.slash_not_mem_materialParts (by simp [materialParts]) (by simp [materialParts]) same

/-- Parts that ask for the same result: the order and repetition of contexts and the order of
members do not count. -/
structure SameResult (left right : CacheKeyParts) : Prop where
  user : left.user = right.user
  kind : left.kind = right.kind
  purpose : left.purpose = right.purpose
  contexts : ∀ context, context ∈ left.contexts ↔ context ∈ right.contexts
  params : Json.Alike left.params right.params
  token : left.token = right.token

theorem sameResult_of_ofParts_eq {left right : CacheKeyParts}
    (free : Sha256.CollisionFree (left.hashedTexts ++ right.hashedTexts))
    (same : CacheKey.ofParts left = .ofParts right) : left.SameResult right := by
  have hexes : (Sha256.ofText left.material).hex = (Sha256.ofText right.material).hex :=
    (String.append_right_inj _).mp (congrArg CacheKey.text same)
  have materials := free _ (by simp [hashedTexts]) _ (by simp [hashedTexts])
    (Sha256.hex_injective hexes)
  have parts := materialParts_injective materials
  simp only [materialParts, List.cons.injEq, and_true] at parts
  obtain ⟨users, namespaces, contextHexes, paramHexes, tokens⟩ := parts
  obtain ⟨kinds, purposes⟩ := ObjectKind.namespaceText_injective namespaces
  have contextTexts : contextText left.contexts = contextText right.contexts :=
    free _ (by simp [hashedTexts]) _ (by simp [hashedTexts]) (Sha256.hex_injective contextHexes)
  have paramTexts : left.params.canonical.text = right.params.canonical.text :=
    free _ (by simp [hashedTexts]) _ (by simp [hashedTexts]) (Sha256.hex_injective paramHexes)
  exact {
    user := Id.text_injective users
    kind := kinds
    purpose := purposes
    contexts := contextText_eq_iff.mp contextTexts
    params := Json.alike_of_canonical_chars (String.ofList_inj.mp paramTexts)
    token := BatchToken.text_injective tokens }

theorem ofParts_eq_of_sameResult {left right : CacheKeyParts} (leftProper : left.params.Proper)
    (rightProper : right.params.Proper) (same : left.SameResult right) :
    CacheKey.ofParts left = .ofParts right := by
  have contexts : contextDigest left.contexts = contextDigest right.contexts :=
    congrArg Sha256.ofText (contextText_eq_iff.mpr same.contexts)
  have params : left.params.digest = right.params.digest :=
    congrArg Sha256.ofText ((Json.canonical_text_eq_iff leftProper rightProper).mpr same.params)
  have materials : left.material = right.material := by
    simp only [material, same.user, same.kind, same.purpose, same.token, contexts, params]
  rw [CacheKey.ofParts, CacheKey.ofParts, materials]

end CacheKeyParts

namespace CacheKey

theorem ofParts_text (parts : CacheKeyParts) :
    ∃ digits : List Char, digits.length = 64 ∧ (∀ digit ∈ digits, digit ∈ Sha256.hexDigits) ∧
      (ofParts parts).text.toList = namespaceText.toList ++ digits :=
  ⟨(Sha256.ofText parts.material).hex.toList, Sha256.length_hex_toList _,
    fun _ => Sha256.mem_hexDigits_of_mem_hex, String.toList_append⟩

theorem not_blank_of_mem_hexDigits :
    ∀ digit ∈ Sha256.hexDigits, Text.isBlank digit = false := by
  simp [Sha256.hexDigits, Text.isBlank]

theorem ofText_ofParts (parts : CacheKeyParts) :
    ofText (ofParts parts).text = .ok (ofParts parts) := by
  obtain ⟨digits, length, hexadecimal, characters⟩ := ofParts_text parts
  have starts : ∀ first ∈ (ofParts parts).text.toList.head?, Text.isBlank first = false := by
    intro first isFirst
    rw [characters] at isFirst
    obtain rfl : 't' = first := Option.some.inj isFirst
    rfl
  have ends : ∀ last ∈ (ofParts parts).text.toList.getLast?, Text.isBlank last = false := by
    intro last isLast
    rw [characters, List.getLast?_append_of_ne_nil _ (by grind)] at isLast
    exact not_blank_of_mem_hexDigits last (hexadecimal last (List.mem_of_getLast? isLast))
  have notBlank : Text.isBlankText (ofParts parts).text = false := by
    rw [Text.isBlankText, characters]
    rfl
  have trimmed : Text.isTrimmed (ofParts parts).text = true := by
    rw [Text.isTrimmed, Text.trim_eq_self starts ends, beq_self_eq_true]
  have inNamespace : namespaceText.toList.isPrefixOf (ofParts parts).text.toList = true := by
    rw [characters, List.isPrefixOf_iff_prefix]
    exact List.prefix_append _ _
  simp [ofText, notBlank, trimmed, inNamespace]

end CacheKey

namespace CacheRequest

def parts (request : CacheRequest) (token : BatchToken) : CacheKeyParts where
  user := request.user
  kind := request.kind
  purpose := request.purpose
  contexts := request.contexts
  params := request.params
  token := token

def hashedTexts (request : CacheRequest) (token : BatchToken) : List String :=
  (request.parts token).hashedTexts

theorem sameResult_of_key_eq {left right : CacheRequest} {token other : BatchToken}
    (free : Sha256.CollisionFree (left.hashedTexts token ++ right.hashedTexts other))
    (same : left.key token = right.key other) : (left.parts token).SameResult (right.parts other) :=
  CacheKeyParts.sameResult_of_ofParts_eq free same

end CacheRequest

namespace NeedsQuery

theorem eq_of_key_eq {left right : NeedsQuery} {config others : Config} {user other : UserId}
    {options choices : NeedsOptions} {scope area : Scope} {token mark : BatchToken}
    (free : Sha256.CollisionFree
      ((left.cacheRequest config user options scope).hashedTexts token ++
        (right.cacheRequest others other choices area).hashedTexts mark))
    (same : (left.cacheRequest config user options scope).key token =
      (right.cacheRequest others other choices area).key mark) :
    left = right ∧ user = other ∧ options = choices ∧
      (∀ context, context ∈ scope.contexts ↔ context ∈ area.contexts) ∧ token = mark := by
  have result := CacheRequest.sameResult_of_key_eq free same
  obtain ⟨queries, optionsSame⟩ := eq_of_alike_params result.kind result.purpose result.params
  exact ⟨queries, result.user, optionsSame, result.contexts, result.token⟩

end NeedsQuery

/-- A key identifies its query. Keys are equal exactly when their parts ask for the same result;
each is the namespace and sixty-four digits, and is accepted as it is; and cached queries that share
a key are the same query. -/
theorem CacheKey.identifies_query :
    (∀ left right : CacheKeyParts, left.params.Proper → right.params.Proper →
      Sha256.CollisionFree (left.hashedTexts ++ right.hashedTexts) →
      (ofParts left = ofParts right ↔ left.SameResult right)) ∧
    (∀ parts : CacheKeyParts,
      (∃ digits : List Char, digits.length = 64 ∧
        (∀ digit ∈ digits, digit ∈ Sha256.hexDigits) ∧
        (ofParts parts).text = "todo:v1:" ++ String.ofList digits) ∧
      ofText (ofParts parts).text = .ok (ofParts parts)) ∧
    (∀ (left right : NeedsQuery) (config others : Config) (user other : UserId)
      (options choices : NeedsOptions) (scope area : Scope) (token mark : BatchToken),
      Sha256.CollisionFree
        ((left.cacheRequest config user options scope).hashedTexts token ++
          (right.cacheRequest others other choices area).hashedTexts mark) →
      (left.cacheRequest config user options scope).key token =
        (right.cacheRequest others other choices area).key mark →
      left = right ∧ user = other ∧ options = choices ∧
        (∀ context, context ∈ scope.contexts ↔ context ∈ area.contexts) ∧ token = mark) := by
  refine ⟨?_, ?_, ?_⟩
  · intro left right leftProper rightProper free
    exact ⟨CacheKeyParts.sameResult_of_ofParts_eq free,
      CacheKeyParts.ofParts_eq_of_sameResult leftProper rightProper⟩
  · intro parts
    obtain ⟨digits, length, hexadecimal, characters⟩ := ofParts_text parts
    refine ⟨⟨digits, length, hexadecimal, ?_⟩, ofText_ofParts parts⟩
    rw [← String.toList_inj, String.toList_append, characters]
    exact congrArg (namespaceText.toList ++ ·) String.toList_ofList.symm
  · intro left right config others user other options choices scope area token mark free same
    exact NeedsQuery.eq_of_key_eq free same

/-- Contexts and members in another order give the same key, and so does another configuration. -/
theorem CacheKey.identifies_query_reordered :
    ofParts {
        user := ⟨⟨7, by decide⟩⟩, kind := .quiz, purpose := .submitting,
        contexts := [.group ⟨⟨2, by decide⟩⟩, .course ⟨⟨-1, by decide⟩⟩],
        params := .object [("b", .natural 1), ("a", .array [.null])], token := ⟨3⟩ } =
      ofParts {
        user := ⟨⟨7, by decide⟩⟩, kind := .quiz, purpose := .submitting,
        contexts := [.course ⟨⟨-1, by decide⟩⟩, .group ⟨⟨2, by decide⟩⟩, .course ⟨⟨-1, by decide⟩⟩],
        params := .object [("a", .array [.null]), ("b", .natural 1)], token := ⟨3⟩ } ∧
    NeedsQuery.moderation = .moderation ∧ (⟨⟨7, by decide⟩⟩ : UserId) = ⟨⟨7, by decide⟩⟩ ∧
      NeedsOptions.default = .default ∧
      (∀ context, context ∈ Scope.contexts ⟨.ofList [⟨⟨1, by decide⟩⟩], .empty⟩ ↔
        context ∈ Scope.contexts ⟨.ofList [⟨⟨1, by decide⟩⟩], .empty⟩) ∧ BatchToken.zero = .zero := by
  constructor
  · have first : (Json.object [("b", .natural 1), ("a", .array [.null])]).canonical.text =
        "\x7b\"a\":[null],\"b\":1\x7d" := by
      cbv
    have second : (Json.object [("a", .array [.null]), ("b", .natural 1)]).canonical.text =
        "\x7b\"a\":[null],\"b\":1\x7d" := by
      cbv
    have item : (Json.array [.null]).Proper := .array (by simp [Json.Proper.null])
    refine (identifies_query.1 _ _ ?_ ?_ ?_).mpr ?_
    · exact .object (by decide) (by simp [item, Json.natural, Json.integer, Json.Proper.number])
    · exact .object (by decide) (by simp [item, Json.natural, Json.integer, Json.Proper.number])
    · simp only [CacheKeyParts.hashedTexts, CacheKeyParts.material, Json.digest, first, second]
      decide +kernel
    · exact {
        user := rfl
        kind := rfl
        purpose := rfl
        contexts := by simp
        params := .object rfl (List.forall₂_same.mpr fun value _ => .refl value) (.swap _ _ _)
        token := rfl }
  · have params : (NeedsQuery.moderation.params .default).canonical.text =
        "\x7b\"options\":\x7b\"contexts\":null,\"course_ids\":null,\"due_after\":null," ++
        "\"due_before\":null,\"group_ids\":null,\"include_concluded\":false," ++
        "\"include_ignored\":false,\"limit\":15\x7d\x7d" := by
      have options : JsonFormat.encode NeedsOptions.default = .object
          [("limit", .natural 15), ("due_after", .null), ("due_before", .null),
            ("include_ignored", .boolean false), ("include_concluded", .boolean false),
            ("course_ids", .null), ("group_ids", .null), ("contexts", .null)] := rfl
      simp only [NeedsQuery.params, options, Json.canonical, Json.canonicalMembers,
        Json.sortMembers, Json.natural, Json.integer]
      simp [List.mergeSort, List.MergeSort.Internal.splitInTwo]
      decide +kernel
    refine identifies_query.2.2 .moderation .moderation {} { cacheSeconds := 5 } _ _ .default .default
      ⟨.ofList [⟨⟨1, by decide⟩⟩], .empty⟩ ⟨.ofList [⟨⟨1, by decide⟩⟩], .empty⟩ .zero .zero ?_ rfl
    simp only [CacheRequest.hashedTexts, CacheRequest.parts, NeedsQuery.cacheRequest,
      CacheKeyParts.hashedTexts, CacheKeyParts.material, Json.digest, params]
    decide +kernel

end Agenda
