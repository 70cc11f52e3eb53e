import Criteria.Predicate.Text
import Criteria.Proofs.Join.Keys
import Criteria.Proofs.Value.Display

/-!
# Comparisons in plans

A comparison in a plan can be told from its text if the paths consist of plain words. The operand
has no blank in it and so stops at the first; what follows tells the comparison, as no keyword is
the beginning of another; and the constants are told from their texts.

## Main definitions

- `Path.IsPlain`, `Attribute.IsPlain`, `Comparison.IsPlain`: words of letters, digits and
  underscores with dots between them, no join taken for a part of a path, and no constant with a
  floating-point number
- `Comparison.keyword`, `Comparison.arguments`: the parts of a comparison

## Main statements

- `Attribute.recovered_render`, `Operand.recovered_render`: what comparisons look at
- `Comparison.recovered_render`: comparisons
-/

namespace Criteria

open Text

def isWordChar (c : Char) : Bool :=
  c.isAlphanum || c == '_'

/-- The part of a path could be the name of a join. -/
def isJoinName (part : String) : Bool :=
  match part.toList with
  | 'j' :: c :: cs => (c :: cs).all Char.isDigit
  | _ => false

namespace Path

/-- A path of words with dots between them. -/
def IsPlain (path : String) : Prop :=
  ∀ part ∈ parts path, part ≠ "" ∧ ∀ c ∈ part.toList, isWordChar c = true

instance (path : String) : Decidable (IsPlain path) :=
  -- the characters of the part are gone through, and not all characters that there are
  haveI (part : String) : Decidable (∀ c ∈ part.toList, isWordChar c = true) :=
    List.decidableBAll _ _
  inferInstanceAs (Decidable (∀ part ∈ parts path, _))

theorem IsPlain.mem {path : String} (h : IsPlain path) {c : Char} (hc : c ∈ path.toList) :
    isWordChar c = true ∨ c = '.' := by
  rw [← joinChars_splitChars '.' path.toList] at hc
  rcases sep_or_part_of_mem_joinChars hc with hdot | ⟨part, hpart, hc⟩
  · exact .inr (List.mem_singleton.mp hdot)
  · refine .inl ((h (String.ofList part) ?_).2 c (by simpa using hc))
    exact List.mem_map_of_mem hpart

end Path

namespace Attribute

/-- The path consists of plain words, and the first one of a path from the document is not the name
of a join. -/
structure IsPlain (a : Attribute) : Prop where
  path : Path.IsPlain a.path
  root : a.source = .root → ∀ part ∈ (Path.parts a.path).head?, isJoinName part = false

theorem isWordChar_of_mem_joinName {id : Nat} {c : Char} (h : c ∈ joinName id) :
    isWordChar c = true := by
  rcases List.mem_cons.mp h with rfl | h
  · rfl
  · simp [isWordChar, Char.isAlphanum, Token.isDigit_of_mem_decimalDigits h]

theorem mem_render {a : Attribute} (ha : a.IsPlain) {c : Char} (hc : c ∈ a.render) :
    isWordChar c = true ∨ c = '.' := by
  obtain ⟨source, path⟩ := a
  cases source with
  | root => exact ha.path.mem hc
  | join id =>
    rcases List.mem_append.mp hc with hc | hc
    · exact .inl (isWordChar_of_mem_joinName hc)
    · rcases List.mem_cons.mp hc with rfl | hc
      · exact .inr rfl
      · exact ha.path.mem hc

theorem not_mem_render {a : Attribute} (ha : a.IsPlain) {c : Char} (hc : isWordChar c = false)
    (hdot : c ≠ '.') : c ∉ a.render := by
  intro hmem
  rcases mem_render ha hmem with h | h
  · rw [hc] at h
    cases h
  · exact hdot h

/-- A path from the document does not look like one from a join. -/
theorem render_root_ne {path : String} (h : (⟨.root, path⟩ : Attribute).IsPlain) (id : Nat)
    (path' : String) : render ⟨.root, path⟩ ≠ render ⟨.join id, path'⟩ := by
  intro heq
  have hname : '.' ∉ joinName id := fun hmem =>
    absurd (isWordChar_of_mem_joinName hmem) (by decide)
  have hparts : (Path.parts path).head? = some (String.ofList (joinName id)) := by
    have htext : path.toList = joinName id ++ '.' :: path'.toList := heq
    rw [Path.parts, split, htext, splitChars_append, splitChars_of_not_mem hname]
    rfl
  have hrefused := h.root rfl _ hparts
  obtain ⟨c, cs, hcs⟩ := List.exists_cons_of_ne_nil (Nat.toDigits_ne_nil (n := id) (b := 10))
  have hjoin : isJoinName (String.ofList (joinName id)) = true := by
    rw [isJoinName, String.toList_ofList, joinName, decimalDigits, hcs]
    change (c :: cs).all Char.isDigit = true
    rw [← hcs, List.all_eq_true]
    exact fun _ => Token.isDigit_of_mem_decimalDigits
  rw [hjoin] at hrefused
  cases hrefused

theorem eq_of_render_eq {a b : Attribute} (ha : a.IsPlain) (hb : b.IsPlain)
    (h : a.render = b.render) : a = b := by
  obtain ⟨source, path⟩ := a
  obtain ⟨source', path'⟩ := b
  cases source with
  | root =>
    cases source' with
    | root =>
      obtain rfl := String.toList_inj.mp h
      rfl
    | join id => exact absurd h (render_root_ne ha id path')
  | join id =>
    cases source' with
    | root => exact absurd h.symm (render_root_ne hb id path)
    | join id' =>
      have htext : decimalDigits id ++ '.' :: path.toList =
          decimalDigits id' ++ '.' :: path'.toList := (List.cons.inj h).2
      have hdot (t : List Char) : ∀ c ∈ ('.' :: t).head?, ¬ c.isDigit = true := by
        intro c hc
        obtain rfl := Option.some.inj hc
        decide
      obtain ⟨hdigits, hpath⟩ := append_inj_of_forall
        (fun _ => Token.isDigit_of_mem_decimalDigits) (fun _ => Token.isDigit_of_mem_decimalDigits)
        (hdot _) (hdot _) htext
      obtain rfl : id = id' := by
        rw [← Token.ofDigits_decimalDigits id, hdigits, Token.ofDigits_decimalDigits]
      obtain rfl := String.toList_inj.mp (List.cons.inj hpath).2
      rfl

end Attribute

namespace Operand

theorem render_lower (a : Attribute) :
    (lower a).render = "LOWER(".toList ++ a.render ++ [')'] := by
  delta render
  rfl

theorem render_size (a : Attribute) :
    (size a).render = "SIZE(".toList ++ a.render ++ [')'] := by
  delta render
  rfl

theorem not_mem_render {o : Operand} (ho : o.target.IsPlain) : ' ' ∉ o.render := by
  have hblank := Attribute.not_mem_render ho (c := ' ') (by decide) (by decide)
  cases o with
  | plain a => exact hblank
  | lower a =>
    simp only [render_lower, List.mem_append, not_or]
    exact ⟨⟨by decide, hblank⟩, by decide⟩
  | size a =>
    simp only [render_size, List.mem_append, not_or]
    exact ⟨⟨by decide, hblank⟩, by decide⟩

/-- An operand does not start with a bracket. -/
theorem head?_render_ne {o : Operand} (ho : o.target.IsPlain) : o.render.head? ≠ some '(' := by
  cases o with
  | plain a =>
    intro hopen
    exact Attribute.not_mem_render (a := a) ho (by decide) (by decide) (List.mem_of_head? hopen)
  | lower a => exact fun h => by cases h
  | size a => exact fun h => by cases h

theorem eq_of_render_eq {o o' : Operand} (ho : o.target.IsPlain) (ho' : o'.target.IsPlain)
    (h : o.render = o'.render) : o = o' := by
  have hbare {a : Attribute} (ha : a.IsPlain) {t : List Char} (h : a.render = t) : '(' ∉ t :=
    h ▸ Attribute.not_mem_render ha (by decide) (by decide)
  have hinner {a b : Attribute} {first : List Char} (ha : a.IsPlain) (hb : b.IsPlain)
      (h : first ++ a.render ++ [')'] = first ++ b.render ++ [')']) : a = b :=
    Attribute.eq_of_render_eq ha hb (List.append_cancel_left (List.append_cancel_right h))
  cases o with
  | plain a =>
    cases o' with
    | plain b => exact congrArg plain (Attribute.eq_of_render_eq ho ho' h)
    | lower b => exact absurd (by simp [render_lower]) (hbare ho h)
    | size b => exact absurd (by simp [render_size]) (hbare ho h)
  | lower a =>
    cases o' with
    | plain b => exact absurd (by simp [render_lower]) (hbare ho' h.symm)
    | lower b => exact congrArg lower (hinner ho ho' h)
    | size b => cases h
  | size a =>
    cases o' with
    | plain b => exact absurd (by simp [render_size]) (hbare ho' h.symm)
    | lower b => cases h
    | size b => exact congrArg size (hinner ho ho' h)

/-- The text of an operand has no blank, and one follows it. -/
theorem recovered_render (o : Operand) (ho : o.target.IsPlain) :
    Recovered render (fun o => o.target.IsPlain) (fun r => r.head? = some ' ') o := by
  intro o' r s ho' hr hs h
  have hblank {o : Operand} (ho : o.target.IsPlain) : ∀ c ∈ o.render, c ≠ ' ' := by
    rintro c hc rfl
    exact not_mem_render ho hc
  obtain ⟨htext, hrest⟩ := append_inj_of_forall (hblank ho) (hblank ho') (by simp [hr])
    (by simp [hs]) h
  exact ⟨eq_of_render_eq ho ho' htext, hrest⟩

end Operand

namespace Comparison

/-- What stands between the operand of a comparison and its constants. -/
def keyword : Comparison → String
  | .equal _ _ => " = "
  | .notEqual _ _ => " <> "
  | .like _ _ => " LIKE "
  | .greaterThan _ _ => " > "
  | .greaterEquals _ _ => " >= "
  | .lessThan _ _ => " < "
  | .lessEquals _ _ => " <= "
  | .oneOf _ _ => " IN "
  | .between _ _ _ => " BETWEEN "
  | .isNull _ => " IS NULL"
  | .isNotNull _ => " IS NOT NULL"
  | .isEmpty _ => " IS EMPTY"
  | .isNotEmpty _ => " IS NOT EMPTY"

def keywords : List String :=
  [" = ", " <> ", " LIKE ", " > ", " >= ", " < ", " <= ", " IN ", " BETWEEN ", " IS NULL",
    " IS NOT NULL", " IS EMPTY", " IS NOT EMPTY"]

theorem keyword_mem (c : Comparison) : c.keyword ∈ keywords := by
  cases c <;> simp only [keyword] <;> decide

theorem head?_keyword (c : Comparison) : c.keyword.toList.head? = some ' ' :=
  (by decide : ∀ k ∈ keywords, k.toList.head? = some ' ') _ c.keyword_mem

/-- The constants of a comparison, as values. -/
def arguments : Comparison → List Value
  | .equal _ v | .notEqual _ v | .greaterThan _ v | .greaterEquals _ v | .lessThan _ v
  | .lessEquals _ v => [v]
  | .like _ pattern => [.text pattern]
  | .oneOf _ values => [.list values]
  | .between _ lower upper => [lower, upper]
  | .isNull _ | .isNotNull _ | .isEmpty _ | .isNotEmpty _ => []

/-- The comparison with given parts. -/
def ofParts? (keyword : String) (o : Operand) (arguments : List Value) : Option Comparison :=
  match keyword, arguments with
  | " = ", [v] => some (.equal o v)
  | " <> ", [v] => some (.notEqual o v)
  | " LIKE ", [.text pattern] => some (.like o pattern)
  | " > ", [v] => some (.greaterThan o v)
  | " >= ", [v] => some (.greaterEquals o v)
  | " < ", [v] => some (.lessThan o v)
  | " <= ", [v] => some (.lessEquals o v)
  | " IN ", [.list values] => some (.oneOf o values)
  | " BETWEEN ", [lower, upper] => some (.between o lower upper)
  | " IS NULL", [] => some (.isNull o)
  | " IS NOT NULL", [] => some (.isNotNull o)
  | " IS EMPTY", [] => some (.isEmpty o)
  | " IS NOT EMPTY", [] => some (.isNotEmpty o)
  | _, _ => none

theorem ofParts?_parts (c : Comparison) : ofParts? c.keyword c.operand c.arguments = some c := by
  cases c <;> rfl

theorem render_eq (c : Comparison) : c.render =
    c.operand.render ++ (c.keyword.toList ++
      joinChars " AND ".toList (c.arguments.map Value.render)) := by
  cases c <;> simp only [render, keyword, operand, arguments, List.map_cons, List.map_nil,
    joinChars, Value.render, List.append_assoc, List.append_nil]

/-- No keyword is the beginning of another. -/
theorem keyword_append_inj {c d : Comparison} {t u : List Char}
    (h : c.keyword.toList ++ t = d.keyword.toList ++ u) : c.keyword = d.keyword ∧ t = u := by
  have hapart : ∀ k ∈ keywords, ∀ l ∈ keywords, k.toList <+: l.toList → k = l := by decide
  have hkeyword : c.keyword = d.keyword := by
    rcases List.append_eq_append_iff.mp h with ⟨more, hd, -⟩ | ⟨more, hc, -⟩
    · exact hapart _ c.keyword_mem _ d.keyword_mem ⟨more, hd.symm⟩
    · exact (hapart _ d.keyword_mem _ c.keyword_mem ⟨more, hc.symm⟩).symm
  rw [hkeyword] at h
  exact ⟨hkeyword, List.append_cancel_left h⟩

/-- No keyword is the beginning of a blank and a bracket, nor the other way round. -/
theorem keyword_append_ne (c : Comparison) (t u : List Char) :
    c.keyword.toList ++ t ≠ " (".toList ++ u := by
  have hapart : ∀ k ∈ keywords,
      ¬ k.toList <+: " (".toList ∧ ¬ " (".toList <+: k.toList := by decide
  intro h
  rcases List.append_eq_append_iff.mp h with ⟨more, heq, -⟩ | ⟨more, heq, -⟩
  · exact (hapart _ c.keyword_mem).1 ⟨more, heq.symm⟩
  · exact (hapart _ c.keyword_mem).2 ⟨more, heq.symm⟩

/-- The operand is plain, and no constant holds a floating-point number. -/
structure IsPlain (c : Comparison) : Prop where
  target : c.operand.target.IsPlain
  arguments : ∀ v ∈ c.arguments, v.Floatless

/-- A comparison is recovered from its text before a closing bracket. -/
theorem recovered_render (c : Comparison) (hc : c.IsPlain) :
    Recovered render IsPlain (fun r => r.head? = some ')') c := by
  intro d r s hd hr hs h
  have hblank (c : Comparison) (t : List Char) : (c.keyword.toList ++ t).head? = some ' ' := by
    rw [List.head?_append, head?_keyword, Option.some_or]
  have hbracket {t : List Char} (ht : t.head? = some ')') :
      Value.EndsValue t ∧ ¬ " AND ".toList <+: t := by
    refine ⟨fun c hc => .inr (.inr (Option.some.inj (hc.symm.trans ht))), ?_⟩
    rintro ⟨u, rfl⟩
    cases ht
  rw [render_eq, render_eq, List.append_assoc, List.append_assoc, List.append_assoc,
    List.append_assoc] at h
  obtain ⟨hoperand, hafter⟩ :=
    c.operand.recovered_render hc.target hd.target (hblank c _) (hblank d _) h
  obtain ⟨hkeyword, hconstants⟩ := keyword_append_inj hafter
  obtain ⟨harguments, hrest⟩ := recovered_joinChars " AND ".toList
    (fun _ _ hc => .inl (Option.some.inj hc).symm)
    (fun _ hv => Value.not_endsValue_render_append hv) hc.arguments
    (fun v hv => v.recovered_render (hc.arguments v hv)) hd.arguments
    (hbracket hr) (hbracket hs) hconstants
  refine ⟨Option.some.inj ?_, hrest⟩
  rw [← ofParts?_parts c, ← ofParts?_parts d, hkeyword, hoperand, harguments]

end Comparison

end Criteria
