import CartoStyle.Proofs.Json.EqualText
import CartoStyle.Proofs.Optimize.Fold

set_option autoImplicit false

/-! # What the signature of a layer determines

Duplicates are found by the text of a layer without its id. Layers of one signature agree, apart
from the id, in the text of every member (`Layer.signature_read_eq_iff`): so they draw from one
source, either both draw or neither does, and they are duplicates also after folding. -/

namespace CartoStyle

/-! ## Folding and equal text -/

namespace Expression

theorem eq_literal_bool_of_toJson {e : Expression} {b : Bool} (h : e.toJson = .bool b) :
    e = .literal (.bool b) := by
  cases e with
  | literal value => exact congrArg literal h
  | _ => simp [toJson] at h

/-- What a node is folded to depends on the text of its arguments only. -/
theorem compact_simplifyNode_congr {operator : String} {args others : List Expression}
    (h : args.map (·.toJson.compact) = others.map (·.toJson.compact)) :
    (simplifyNode (.call operator args)).toJson.compact =
      (simplifyNode (.call operator others)).toJson.compact := by
  -- The argument of a constant is a truth value, which is the only value with its text.
  have hconstant : ∀ {as bs : List Expression} {b : Bool}, as = [.literal (.bool b)] →
      as.map (·.toJson.compact) = bs.map (·.toJson.compact) → bs = as := by
    rintro _ bs b rfl hmap
    obtain ⟨e, rfl⟩ : ∃ e, bs = [e] := by
      rw [← List.length_eq_one_iff, ← List.length_map (f := fun e : Expression => e.toJson.compact),
        ← hmap]
      rfl
    have he : e.toJson.compact = (Json.bool b).compact := (List.cons.inj hmap).1.symm
    rw [eq_literal_bool_of_toJson (Json.compact_eq_bool_iff.1 he)]
  rcases simplifyNode_cases (.call operator args) with ⟨_, b, _, heq, -, -⟩ | hargs
  · obtain ⟨-, hb⟩ := Expression.call.inj heq
    rw [hconstant hb h]
  rcases simplifyNode_cases (.call operator others) with ⟨_, b, _, heq, -, -⟩ | hothers
  · obtain ⟨-, hb⟩ := Expression.call.inj heq
    rw [← hconstant hb h.symm]
  rw [hargs, hothers, toJson_call, toJson_call, Json.compact_array_inj, List.map_cons,
    List.map_cons, List.map_map, List.map_map]
  exact congrArg _ h

end Expression

namespace Json

theorem folded_of_not_array {value : Json} (h : ∀ items, value ≠ .array items) :
    value.folded = value := by
  cases value with
  | array items => exact absurd rfl (h items)
  | _ => rfl

theorem folded_call (operator : String) (args : List Json) :
    (Json.array (.string operator :: args)).folded =
      (Expression.simplifyNode
        (.call operator (args.map fun arg => (Expression.ofJson arg).simplify))).toJson := by
  rw [folded, Expression.ofJson_call, Expression.simplify_call, List.map_map]
  rfl

theorem folded_malformed {items : List Json}
    (h : Expression.ofJson (.array items) = .malformed items) :
    (Json.array items).folded = .array items := by
  rw [folded, h]
  rfl

/-- **Folding respects equal text.** -/
theorem compact_folded_congr {a b : Json} (h : a.compact = b.compact) :
    a.folded.compact = b.folded.compact := by
  induction a using tree_induction generalizing b with
  | array items ih =>
    obtain ⟨others, rfl, hitems⟩ := compact_eq_array_iff.1 h.symm
    -- The string that makes an array a call is determined by its text.
    rcases Expression.ofJson_array_cases items with ⟨operator, args, rfl⟩ | hmalformed
    · obtain ⟨head, args', rfl, hhead, hargs⟩ := List.map_eq_cons_iff.1 hitems
      obtain rfl := compact_eq_string_iff.1 hhead
      rw [folded_call, folded_call]
      apply Expression.compact_simplifyNode_congr
      rw [List.map_map, List.map_map]
      exact map_eq_map_of_imp
        (fun arg hm other _ heq => ih arg (List.mem_cons_of_mem _ hm) heq) hargs.symm
    · rcases Expression.ofJson_array_cases others with ⟨operator, args, rfl⟩ | hmalformed'
      · obtain ⟨head, args', rfl, hhead, -⟩ := List.map_eq_cons_iff.1 hitems.symm
        obtain rfl := compact_eq_string_iff.1 hhead
        simp [Expression.ofJson_call] at hmalformed
      · rwa [folded_malformed hmalformed, folded_malformed hmalformed']
  | _ =>
    have hb : ∀ items, b ≠ .array items := by
      rintro items rfl
      obtain ⟨_, heq, -⟩ := compact_eq_array_iff.1 h
      simp at heq
    rwa [folded_of_not_array (by simp), folded_of_not_array hb]

end Json

namespace Layer

theorem foldMember_filter (value : Json) : foldMember "filter" value = value.folded := by
  rw [foldMember, rewriteMember_filter]
  cases value <;> rfl

theorem compact_rewriteBlock_congr {a b : Json} (h : a.compact = b.compact) :
    (rewriteBlock (fun _ e => e.simplify) a).compact =
      (rewriteBlock (fun _ e => e.simplify) b).compact := by
  cases a with
  | object properties =>
    obtain ⟨others, rfl, htexts⟩ := Json.compact_eq_object_iff.1 h.symm
    exact Json.compact_object_inj.2
      (Json.texts_mapValues_congr (fun _ _ _ => Json.compact_folded_congr) htexts.symm)
  | _ =>
    have hb : rewriteBlock (fun _ e => e.simplify) b = b := by
      cases b with
      | object properties =>
        obtain ⟨_, heq, -⟩ := Json.compact_eq_object_iff.1 h
        simp at heq
      | _ => rfl
    rw [hb]
    exact h

/-- Folding a member respects equal text. -/
theorem compact_foldMember_congr (key : String) {a b : Json} (h : a.compact = b.compact) :
    (foldMember key a).compact = (foldMember key b).compact := by
  refine rewriteMember_cases (motive := fun _ change => (change a).compact = (change b).compact)
    ?_ ?_ ?_ ?_ key
  · show (foldMember "filter" a).compact = (foldMember "filter" b).compact
    rw [foldMember_filter, foldMember_filter]
    exact Json.compact_folded_congr h
  · exact compact_rewriteBlock_congr h
  · exact compact_rewriteBlock_congr h
  · intro _ _ _ _
    exact h

/-! ## Layers of one signature -/

variable {members others : List (String × Json)}

theorem signature_read (nodup : (Members.keys members).Nodup) :
    (Layer.read members).signature = (Json.object (Members.erase "id" members)).compact := by
  have hwrite : writeFields (Layer.read members).order (Layer.read members).extra
      (Layer.read members).slots = members := by
    simpa [toJson] using toJson_read nodup
  rw [signature, hwrite]

/-- Layers of one signature have the same members up to text, the id apart. -/
theorem signature_read_eq_iff (nodup : (Members.keys members).Nodup)
    (nodup' : (Members.keys others).Nodup) :
    (Layer.read members).signature = (Layer.read others).signature ↔
      Json.texts (Members.erase "id" members) = Json.texts (Members.erase "id" others) := by
  rw [signature_read nodup, signature_read nodup', Json.compact_object_inj]

theorem lookup_compact_eq
    (h : Json.texts (Members.erase "id" members) = Json.texts (Members.erase "id" others))
    {key : String} (hkey : key ≠ "id") :
    (members.lookup key).map Json.compact = (others.lookup key).map Json.compact := by
  have hlookup := congrArg (List.lookup key) h
  rw [Json.texts, Json.texts, Members.lookup_mapValues, Members.lookup_mapValues,
    Members.lookup_erase, Members.lookup_erase, if_neg hkey, if_neg hkey] at hlookup
  exact hlookup

end Layer

namespace Shape

variable {members others : List (String × Json)}

/-- What a field is seen to hold is determined by the text of its value, when a shape reads it from
    the text. -/
theorem get?_congr {α β : Type} (shape : Shape α) (view : α → β)
    (hshape : ∀ {a b : Json}, a.compact = b.compact →
      (shape.read a).map view = (shape.read b).map view) {key : String}
    (h : (members.lookup key).map Json.compact = (others.lookup key).map Json.compact) :
    (shape.get? key members).map view = (shape.get? key others).map view := by
  unfold get?
  cases ha : members.lookup key with
  | none =>
    rw [ha] at h
    obtain hb := Option.map_eq_none_iff.1 h.symm
    rw [hb]
  | some a =>
    rw [ha] at h
    obtain ⟨b, hb, hcompact⟩ := Option.map_eq_some_iff.1 h.symm
    rw [hb]
    exact hshape hcompact.symm

theorem read_text_congr {a b : Json} (h : a.compact = b.compact) : text.read a = text.read b := by
  ext s
  rw [read_text_iff, read_text_iff, ← Json.compact_eq_string_iff, h, Json.compact_eq_string_iff]

/-- Whether a block has properties can be told from its text. -/
theorem read_block_congr {a b : Json} (h : a.compact = b.compact) :
    (block.read a).map (·.isEmpty) = (block.read b).map (·.isEmpty) := by
  cases a with
  | object properties =>
    obtain ⟨properties', rfl, htexts⟩ := Json.compact_eq_object_iff.1 h.symm
    have hlength := congrArg List.length htexts
    cases properties <;> cases properties' <;>
      simp [Json.texts, Members.mapValues, block, Json.asObject?] at hlength ⊢
  | _ =>
    cases b with
    | object properties =>
      obtain ⟨_, heq, -⟩ := Json.compact_eq_object_iff.1 h
      simp at heq
    | _ => rfl

end Shape

namespace Layer

theorem hasEntries_eq (block : Option Block) :
    hasEntries block = (block.map (·.isEmpty) == some false) := by
  cases block with
  | none => rfl
  | some properties => cases properties <;> rfl

section

variable {l m : Layer} (hl : l.Decoded) (hm : m.Decoded) (h : l.signature = m.signature)

include hl hm h

/-- Layers of one signature draw from one source. -/
theorem source_eq_of_signature_eq : l.source = m.source := by
  obtain ⟨members, nodup, rfl⟩ := hl
  obtain ⟨others, nodup', rfl⟩ := hm
  have htexts := (signature_read_eq_iff nodup nodup').1 h
  have hsource := Shape.get?_congr .text (fun s => s)
    (fun hab => congrArg (Option.map fun s => s) (Shape.read_text_congr hab))
    (lookup_compact_eq htexts (by decide : "source" ≠ "id"))
  rwa [Option.map_id', Option.map_id'] at hsource

/-- Of layers of one signature either both draw or neither does. -/
theorem draws_eq_of_signature_eq : l.Draws = m.Draws := by
  obtain ⟨members, nodup, rfl⟩ := hl
  obtain ⟨others, nodup', rfl⟩ := hm
  have htexts := (signature_read_eq_iff nodup nodup').1 h
  have hkind : (Layer.read members).kind = (Layer.read others).kind :=
    Shape.get?_congr .text LayerKind.ofText
      (fun hab => congrArg (Option.map LayerKind.ofText) (Shape.read_text_congr hab))
      (lookup_compact_eq htexts (by decide : "type" ≠ "id"))
  have hblock : ∀ {key}, key ≠ "id" → hasEntries (Shape.block.get? key members) =
      hasEntries (Shape.block.get? key others) := by
    intro key hkey
    rw [hasEntries_eq, hasEntries_eq,
      Shape.get?_congr .block (·.isEmpty) Shape.read_block_congr (lookup_compact_eq htexts hkey)]
  have hpaint : hasEntries (Layer.read members).paint = hasEntries (Layer.read others).paint :=
    hblock (by decide : "paint" ≠ "id")
  have hlayout : hasEntries (Layer.read members).layout = hasEntries (Layer.read others).layout :=
    hblock (by decide : "layout" ≠ "id")
  rw [Draws, Draws, isBackground, isBackground, hasProperties, hasProperties, hkind, hpaint,
    hlayout]

/-- **Duplicates stay duplicates when they are folded.** -/
theorem signature_folded_eq_of_signature_eq : l.folded.signature = m.folded.signature := by
  obtain ⟨members, nodup, rfl⟩ := hl
  obtain ⟨others, nodup', rfl⟩ := hm
  have hnodup : ∀ {ms : List (String × Json)}, (Members.keys ms).Nodup →
      (Members.keys (Members.mapValues foldMember ms)).Nodup := by
    intro ms hms
    rw [Members.keys_mapValues]
    exact hms
  have herase : ∀ ms : List (String × Json),
      Members.erase "id" (Members.mapValues foldMember ms) =
        Members.mapValues foldMember (Members.erase "id" ms) := by
    intro ms
    rw [Members.erase, Members.mapValues, List.filter_map]
    rfl
  rw [← read_foldMember, ← read_foldMember, signature_read_eq_iff (hnodup nodup) (hnodup nodup'),
    herase, herase]
  exact Json.texts_mapValues_congr (fun key => compact_foldMember_congr key)
    ((signature_read_eq_iff nodup nodup').1 h)

end

end Layer

end CartoStyle
