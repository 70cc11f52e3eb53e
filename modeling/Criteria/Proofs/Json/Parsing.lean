import Criteria.Json.Record
import Criteria.Proofs.Json.Lexing

/-!
# Written documents are parsed

The tokens of a document build its tree, in the place that is open for it. So the text of a
document is JSON, and its syntax is the tree of the document.

## Main statements

- `Tree.ofTokens_tokens`: the tokens of a document put its tree in its place
- `Tree.parse_compact`: the text of a document has the tree of the document
- `Reader.outcome_readText`: what is read from the tree is read from the text
-/

namespace Criteria

namespace Tree

theorem ofTokens_cons_of_step {frames frames' : List Frame} {phase phase' : Phase} {token : Token}
    (h : step frames phase token = some (frames', phase')) (rest : List Token) :
    ofTokens frames phase (token :: rest) = ofTokens frames' phase' rest := by
  rw [ofTokens.eq_def]
  simp only [h]

mutual

/-- The tokens of a document put its tree in its place, and the rest goes on from there. -/
theorem ofTokens_tokens (j : Json) {frames frames' : List Frame} {phase : Phase}
    (h : plug (ofJson j) frames = some (frames', phase)) (mayClose : Bool) (rest : List Token) :
    ofTokens frames (.value mayClose) (j.tokens ++ rest) = ofTokens frames' phase rest := by
  cases j with
  | null =>
    rw [ofJson] at h
    have hstep : step frames (.value mayClose) .null = some (frames', phase) := h
    rw [Json.tokens]
    exact ofTokens_cons_of_step hstep rest
  | bool b =>
    rw [ofJson] at h
    have hstep : step frames (.value mayClose) (.bool b) = some (frames', phase) := h
    rw [Json.tokens]
    exact ofTokens_cons_of_step hstep rest
  | number n =>
    rw [ofJson] at h
    have hstep : step frames (.value mayClose) (.number (some n)) = some (frames', phase) := h
    rw [Json.tokens]
    exact ofTokens_cons_of_step hstep rest
  | text s =>
    rw [ofJson] at h
    have hstep : step frames (.value mayClose) (.string (some s)) = some (frames', phase) := h
    rw [Json.tokens]
    exact ofTokens_cons_of_step hstep rest
  | array items =>
    rw [ofJson] at h
    rw [Json.tokens, List.cons_append, List.append_assoc, ofTokens_cons_of_step rfl]
    cases items with
    | nil =>
      have hclose : step (.items [] :: frames) (.value true) .closeArray =
          some (frames', phase) := h
      exact ofTokens_cons_of_step hclose rest
    | cons item others =>
      have hplug : plug (.array ([].reverse ++ ofItems (item :: others))) frames =
          some (frames', phase) := h
      exact ofTokens_itemTokens (item :: others) (List.cons_ne_nil _ _) hplug true rest
  | object fields =>
    rw [ofJson] at h
    rw [Json.tokens, List.cons_append, List.append_assoc, ofTokens_cons_of_step rfl]
    cases fields with
    | nil =>
      have hclose : step (.fields [] :: frames) (.key true) .closeObject =
          some (frames', phase) := h
      exact ofTokens_cons_of_step hclose rest
    | cons field others =>
      have hplug : plug (.object ([].reverse ++ ofFields (field :: others))) frames =
          some (frames', phase) := h
      exact ofTokens_fieldTokens (field :: others) (List.cons_ne_nil _ _) hplug true rest

/-- The items of an array of which some have been read. -/
theorem ofTokens_itemTokens (items : List Json) (hne : items ≠ []) {before : List Tree}
    {frames frames' : List Frame} {phase : Phase}
    (h : plug (.array (before.reverse ++ ofItems items)) frames = some (frames', phase))
    (mayClose : Bool) (rest : List Token) :
    ofTokens (.items before :: frames) (.value mayClose)
      (Json.itemTokens items ++ .closeArray :: rest) = ofTokens frames' phase rest := by
  match items with
  | [] => exact absurd rfl hne
  | [item] =>
    have hclose : step (.items (ofJson item :: before) :: frames) .separator .closeArray =
        some (frames', phase) := by
      rw [← h, step, List.reverse_cons]
      rfl
    rw [Json.itemTokens, ofTokens_tokens item rfl, ofTokens_cons_of_step hclose]
  | item :: second :: others =>
    have hnext : plug (.array ((ofJson item :: before).reverse ++ ofItems (second :: others)))
        frames = some (frames', phase) := by
      rw [← h, List.reverse_cons, List.append_assoc]
      rfl
    simp only [Json.itemTokens, List.append_assoc, List.cons_append]
    rw [ofTokens_tokens item rfl, ofTokens_cons_of_step rfl]
    exact ofTokens_itemTokens (second :: others) (List.cons_ne_nil _ _) hnext false rest

/-- The fields of an object of which some have been read. -/
theorem ofTokens_fieldTokens (fields : List (String × Json)) (hne : fields ≠ [])
    {before : List (Option String × Tree)} {frames frames' : List Frame} {phase : Phase}
    (h : plug (.object (before.reverse ++ ofFields fields)) frames = some (frames', phase))
    (mayClose : Bool) (rest : List Token) :
    ofTokens (.fields before :: frames) (.key mayClose)
      (Json.fieldTokens fields ++ .closeObject :: rest) = ofTokens frames' phase rest := by
  match fields with
  | [] => exact absurd rfl hne
  | [(key, value)] =>
    have hclose : step (.fields ((some key, ofJson value) :: before) :: frames) .separator
        .closeObject = some (frames', phase) := by
      rw [← h, step, List.reverse_cons]
      rfl
    simp only [Json.fieldTokens, List.cons_append]
    rw [ofTokens_cons_of_step rfl, ofTokens_cons_of_step rfl, ofTokens_tokens value rfl,
      ofTokens_cons_of_step hclose]
  | (key, value) :: second :: others =>
    have hnext : plug (.object (((some key, ofJson value) :: before).reverse ++
        ofFields (second :: others))) frames = some (frames', phase) := by
      rw [← h, List.reverse_cons, List.append_assoc]
      rfl
    simp only [Json.fieldTokens, List.append_assoc, List.cons_append]
    rw [ofTokens_cons_of_step rfl, ofTokens_cons_of_step rfl, ofTokens_tokens value rfl,
      ofTokens_cons_of_step rfl]
    exact ofTokens_fieldTokens (second :: others) (List.cons_ne_nil _ _) hnext false rest

end

/-- The text of a document of which the numbers read back is JSON, with the tree of the
document. -/
theorem parse_compact {j : Json} (h : j.Legible) : parse j.compact = (ofJson j, true) := by
  have hplug : plug (ofJson j) [] = some ([], .done (ofJson j)) := rfl
  have htokens := ofTokens_tokens j hplug false []
  rw [List.append_nil] at htokens
  have hchars : j.compact.toList = j.render := String.toList_ofList
  rw [parse, hchars, Token.scan_render h]
  simp only [htokens]
  rfl

end Tree

/-- What is read from a document whose numbers read back is read from its text. -/
theorem Reader.outcome_readText {ω α : Type} {reader : Reader ω α} {j : Json} {a : α}
    (hlegible : j.Legible) (hread : (reader maxDepth (.ofJson j)).outcome = .ok a) :
    (reader.readText j.compact).outcome = .ok a := by
  rw [readText, onText, Tree.parse_compact hlegible]
  simp only [Logged.mapError, Logged.outcome_bind, hread]
  rfl

end Criteria
