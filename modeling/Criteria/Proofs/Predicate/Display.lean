import Criteria.Proofs.Plan.NormalForm
import Criteria.Proofs.Predicate.Comparisons

/-!
# Predicates in plans

Different predicates have different texts if none has an idle part. A member of a connective is in
brackets or negates something in brackets, and what follows its closing bracket tells the
connective. No text among the constants can be taken for any of this, since it stops at the quote
that ends it.

## Main definitions

- `Predicate.clause`: a member of a connective
- `Predicate.Leads`: a predicate that starts with a member
- `Predicate.IsLegible`: the predicates that are told apart

## Main statements

- `Predicate.recovered_render`: a predicate without an idle part before a closing bracket
- `Predicate.eq_of_display_eq`: predicates of the same text are the same
-/

namespace Criteria.Predicate

open Text

/-- The text of a member of a connective. -/
def clause (p : Predicate) : List Char :=
  bracketed p p.render

/-- No part is idle, the paths are plain, and no constant holds a floating-point number. -/
structure IsLegible (p : Predicate) : Prop where
  reduced : p.IsReduced
  plain : ∀ c ∈ p.comparisons, c.IsPlain

/-- What may follow a member of a connective. -/
def EndsClause (r : List Char) : Prop :=
  r.head? = some ' ' ∨ r.head? = some ')'

theorem renderMembers_eq (connective : List Char) (members : List Predicate) :
    renderMembers connective members = joinChars connective (members.map clause) := by
  induction members with
  | nil => rfl
  | cons member rest ih =>
    cases rest with
    | nil => rfl
    | cons next rest =>
      have hstep : renderMembers connective (member :: next :: rest) =
          clause member ++ connective ++ renderMembers connective (next :: rest) := rfl
      rw [hstep, ih]
      rfl

theorem isLegible_of_mem {members : List Predicate} (hreduced : ∀ m ∈ members, m.IsReduced)
    (hplain : ∀ c ∈ comparisonsOf members, c.IsPlain) : ∀ m ∈ members, m.IsLegible := by
  intro m hm
  rw [comparisonsOf_eq] at hplain
  exact ⟨hreduced m hm, fun c hc => hplain c (List.mem_flatMap.mpr ⟨m, hm, hc⟩)⟩

/-- A predicate starts with a member, and some text is left. -/
inductive Leads : Predicate → Predicate → List Char → Prop
  | not (c : Comparison) : Leads (.not (.compare c)) (.not (.compare c)) []
  | and (m next : Predicate) (rest : List Predicate) :
    Leads (.and (m :: next :: rest)) m
      (" AND ".toList ++ renderMembers " AND ".toList (next :: rest))
  | or (m next : Predicate) (rest : List Predicate) :
    Leads (.or (m :: next :: rest)) m (" OR ".toList ++ renderMembers " OR ".toList (next :: rest))

theorem Leads.render_eq {p m : Predicate} {t : List Char} (h : Leads p m t) :
    p.render = clause m ++ t := by
  cases h with
  | not c => exact (List.append_nil _).symm
  | and m next rest => exact List.append_assoc _ _ _
  | or m next rest => exact List.append_assoc _ _ _

/-- Without an idle part, what is no comparison starts with a member. -/
theorem IsReduced.leads {p : Predicate} (h : p.IsReduced) :
    (∃ c, p = .compare c) ∨ ∃ m t, Leads p m t ∧ m.IsReduced := by
  cases h with
  | compare c => exact .inl ⟨c, rfl⟩
  | not c => exact .inr ⟨_, _, .not c, .not c⟩
  | @and members several each =>
    match members with
    | m :: next :: rest => exact .inr ⟨_, _, .and m next rest, each m List.mem_cons_self⟩
  | @or members several each =>
    match members with
    | m :: next :: rest => exact .inr ⟨_, _, .or m next rest, each m List.mem_cons_self⟩

/-- A member is in brackets, or it negates a comparison in brackets. -/
theorem exists_clause_eq {m : Predicate} (h : m.IsReduced) :
    clause m = '(' :: (m.render ++ [')']) ∨ ∃ c, m = .not (.compare c) ∧
      clause m = "NOT (".toList ++ (c.render ++ [')']) := by
  cases h with
  | not c => exact .inr ⟨c, rfl, rfl⟩
  | _ => exact .inl rfl

theorem not_endsClause_clause_append {m : Predicate} (h : m.IsReduced) (t : List Char) :
    ¬ EndsClause (clause m ++ t) := by
  rcases exists_clause_eq h with heq | ⟨c, -, heq⟩
  · rw [heq]
    rintro (h | h) <;> cases h
  · rw [heq]
    rintro (h | h) <;> cases h

/-- A comparison does not start like a member. -/
theorem render_compare_ne {c : Comparison} (hc : c.IsPlain) {m : Predicate} (hm : m.IsReduced)
    (r t : List Char) : c.render ++ r ≠ clause m ++ t := by
  rw [Comparison.render_eq, List.append_assoc, List.append_assoc]
  intro h
  rcases exists_clause_eq hm with heq | ⟨d, -, heq⟩
  · have hhead := Operand.head?_render_ne hc.target
    have hheads := congrArg List.head? h
    rw [List.head?_append, List.head?_append, Comparison.head?_keyword, heq, List.cons_append,
      List.head?_cons] at hheads
    cases htext : c.operand.render.head? with
    | none =>
      rw [htext] at hheads
      cases hheads
    | some first =>
      rw [htext] at hheads hhead
      exact hhead hheads
  · have hblank : ∀ c' ∈ c.operand.render, c' ≠ ' ' := by
      rintro _ hc' rfl
      exact Operand.not_mem_render hc.target hc'
    have hword : "NOT (".toList = "NOT".toList ++ " (".toList := rfl
    have hnot : ∀ c' ∈ "NOT".toList, c' ≠ ' ' := by
      rintro _ hc' rfl
      exact absurd hc' (by decide)
    rw [heq, hword, List.append_assoc, List.append_assoc] at h
    obtain ⟨-, hafter⟩ := append_inj_of_forall hblank hnot
      (by simp [List.head?_append, Comparison.head?_keyword]) (by simp) h
    exact c.keyword_append_ne _ _ hafter

/-- The negation of a comparison is recovered from its text. -/
theorem recovered_negation {c : Comparison} (hc : c.IsPlain) :
    Recovered clause IsLegible EndsClause (.not (.compare c)) := by
  intro n r s hn _ _ h
  have heq : clause (.not (.compare c)) = "NOT (".toList ++ (c.render ++ [')']) := rfl
  rcases exists_clause_eq hn.reduced with heq' | ⟨d, rfl, heq'⟩
  · rw [heq, heq'] at h
    cases h
  · simp only [heq, heq', List.append_assoc] at h
    obtain ⟨rfl, hrest⟩ := c.recovered_render hc (hn.plain d List.mem_cons_self) rfl rfl
      (List.append_cancel_left h)
    exact ⟨rfl, List.tail_eq_of_cons_eq hrest⟩

/-- The members of connectives are recovered if their own texts are. -/
theorem recovered_clause {m : Predicate} (hm : m.IsLegible)
    (h : Recovered render IsLegible (fun r => r.head? = some ')') m) :
    Recovered clause IsLegible EndsClause m := by
  rcases exists_clause_eq hm.reduced with heq | ⟨c, rfl, -⟩
  · intro n r s hn hr hs htext
    rcases exists_clause_eq hn.reduced with heq' | ⟨d, -, heq'⟩
    · rw [heq, heq'] at htext
      simp only [List.cons_append, List.append_assoc, List.cons.injEq, true_and,
        List.nil_append] at htext
      obtain ⟨rfl, hrest⟩ := h hn rfl rfl htext
      exact ⟨rfl, List.tail_eq_of_cons_eq hrest⟩
    · rw [heq, heq'] at htext
      cases htext
  · exact recovered_negation (hm.plain c List.mem_cons_self)

theorem endsClause_of_closes {r : List Char} {connective : List Char}
    (hconnective : connective.head? = some ' ') (h : r.head? = some ')') :
    EndsClause r ∧ ¬ connective <+: r := by
  refine ⟨.inr h, ?_⟩
  rintro ⟨t, rfl⟩
  rw [List.head?_append, hconnective, Option.some_or] at h
  cases h

/-- Members with a connective between them are recovered if each of them is. -/
theorem renderMembers_append_inj {connective : List Char} (hblank : connective.head? = some ' ')
    {members others : List Predicate} (hmembers : ∀ m ∈ members, m.IsLegible)
    (hothers : ∀ m ∈ others, m.IsLegible)
    (hclauses : ∀ m ∈ members, Recovered clause IsLegible EndsClause m) {r s : List Char}
    (hr : r.head? = some ')') (hs : s.head? = some ')')
    (h : renderMembers connective members ++ r = renderMembers connective others ++ s) :
    members = others ∧ r = s := by
  rw [renderMembers_eq, renderMembers_eq] at h
  refine recovered_joinChars _ (fun t => .inl ?_)
    (fun m hm => not_endsClause_clause_append hm.reduced) hmembers hclauses hothers
    (endsClause_of_closes hblank hr) (endsClause_of_closes hblank hs) h
  rw [List.head?_append, hblank, Option.some_or]

theorem IsLegible.of_and {members : List Predicate} (h : (and members).IsLegible) :
    ∀ m ∈ members, m.IsLegible := by
  cases h.reduced with
  | and _ each => exact isLegible_of_mem each h.plain

theorem IsLegible.of_or {members : List Predicate} (h : (or members).IsLegible) :
    ∀ m ∈ members, m.IsLegible := by
  cases h.reduced with
  | or _ each => exact isLegible_of_mem each h.plain

theorem Leads.endsClause {p m : Predicate} {t r : List Char} (h : Leads p m t)
    (hr : r.head? = some ')') : EndsClause (t ++ r) := by
  cases h with
  | not c => exact .inr hr
  | and m next rest => exact .inl rfl
  | or m next rest => exact .inl rfl

theorem Leads.isLegible {p m : Predicate} {t : List Char} (h : Leads p m t) (hp : p.IsLegible) :
    m.IsLegible := by
  cases h with
  | not c => exact hp
  | and m next rest => exact hp.of_and m List.mem_cons_self
  | or m next rest => exact hp.of_or m List.mem_cons_self

/-- A predicate that starts with a member is recovered if the text after the member tells how it
goes on. -/
theorem Leads.recovered {p m : Predicate} {t : List Char} (hlead : Leads p m t)
    (hp : p.IsLegible) (hfirst : Recovered clause IsLegible EndsClause m)
    (hafter : ∀ {q u r s}, q.IsLegible → Leads q m u → r.head? = some ')' → s.head? = some ')' →
      t ++ r = u ++ s → p = q ∧ r = s) :
    Recovered render IsLegible (fun r => r.head? = some ')') p := by
  intro q r s hq hr hs h
  rw [hlead.render_eq, List.append_assoc] at h
  rcases hq.reduced.leads with ⟨c, rfl⟩ | ⟨n, u, hlead', -⟩
  · exact absurd h.symm (render_compare_ne (hq.plain c List.mem_cons_self)
      (hlead.isLegible hp).reduced _ _)
  · rw [hlead'.render_eq, List.append_assoc] at h
    obtain ⟨rfl, hrest⟩ := hfirst (hlead'.isLegible hq) (hlead.endsClause hr)
      (hlead'.endsClause hs) h
    exact hafter hq hlead' hr hs hrest

theorem recovered_compare {c : Comparison} (hc : c.IsPlain) :
    Recovered render IsLegible (fun r => r.head? = some ')') (.compare c) := by
  intro q r s hq hr hs h
  rcases hq.reduced.leads with ⟨d, rfl⟩ | ⟨m, t, hlead, hm⟩
  · obtain ⟨rfl, hrest⟩ := c.recovered_render hc (hq.plain d List.mem_cons_self) hr hs h
    exact ⟨rfl, hrest⟩
  · rw [hlead.render_eq, List.append_assoc] at h
    exact absurd h (render_compare_ne hc hm _ _)

theorem recovered_not {c : Comparison} (hp : (not (.compare c)).IsLegible) :
    Recovered render IsLegible (fun r => r.head? = some ')') (.not (.compare c)) := by
  refine (Leads.not c).recovered hp (recovered_negation (hp.plain c List.mem_cons_self)) ?_
  intro q u r s hq hlead hr hs h
  rw [List.nil_append] at h
  cases hlead with
  | not => exact ⟨rfl, h⟩
  | and _ next rest => cases h ▸ hr
  | or _ next rest => cases h ▸ hr

section Members

variable {m next : Predicate} {rest : List Predicate}

theorem recovered_and (hp : (and (m :: next :: rest)).IsLegible)
    (hclauses : ∀ k ∈ m :: next :: rest, Recovered clause IsLegible EndsClause k) :
    Recovered render IsLegible (fun r => r.head? = some ')') (.and (m :: next :: rest)) := by
  rw [List.forall_mem_cons] at hclauses
  refine (Leads.and m next rest).recovered hp hclauses.1 ?_
  intro q u r s hq hlead hr hs h
  cases hlead with
  | not c =>
    rw [List.nil_append] at h
    cases h ▸ hs
  | or => cases h
  | and =>
    rw [List.append_assoc, List.append_assoc] at h
    obtain ⟨hrest, htail⟩ := renderMembers_append_inj rfl
      (fun k hk => hp.of_and k (List.mem_cons_of_mem m hk))
      (fun k hk => hq.of_and k (List.mem_cons_of_mem m hk)) hclauses.2 hr hs
      (List.append_cancel_left h)
    exact ⟨by rw [hrest], htail⟩

theorem recovered_or (hp : (or (m :: next :: rest)).IsLegible)
    (hclauses : ∀ k ∈ m :: next :: rest, Recovered clause IsLegible EndsClause k) :
    Recovered render IsLegible (fun r => r.head? = some ')') (.or (m :: next :: rest)) := by
  rw [List.forall_mem_cons] at hclauses
  refine (Leads.or m next rest).recovered hp hclauses.1 ?_
  intro q u r s hq hlead hr hs h
  cases hlead with
  | not c =>
    rw [List.nil_append] at h
    cases h ▸ hs
  | and => cases h
  | or =>
    rw [List.append_assoc, List.append_assoc] at h
    obtain ⟨hrest, htail⟩ := renderMembers_append_inj rfl
      (fun k hk => hp.of_or k (List.mem_cons_of_mem m hk))
      (fun k hk => hq.of_or k (List.mem_cons_of_mem m hk)) hclauses.2 hr hs
      (List.append_cancel_left h)
    exact ⟨by rw [hrest], htail⟩

end Members

/-- A predicate without an idle part is recovered from its text before a closing bracket. -/
theorem recovered_render {p : Predicate} (hp : p.IsReduced)
    (hplain : ∀ c ∈ p.comparisons, c.IsPlain) :
    Recovered render IsLegible (fun r => r.head? = some ')') p := by
  induction hp with
  | compare c => exact recovered_compare (hplain c List.mem_cons_self)
  | not c => exact recovered_not ⟨.not c, hplain⟩
  | @and members several each ih =>
    have hp : IsLegible (.and members) := ⟨.and several each, hplain⟩
    have hclauses : ∀ m ∈ members, Recovered clause IsLegible EndsClause m := fun m hm =>
      recovered_clause (hp.of_and m hm) (ih m hm (hp.of_and m hm).plain)
    match members with
    | m :: next :: rest => exact recovered_and hp hclauses
  | @or members several each ih =>
    have hp : IsLegible (.or members) := ⟨.or several each, hplain⟩
    have hclauses : ∀ m ∈ members, Recovered clause IsLegible EndsClause m := fun m hm =>
      recovered_clause (hp.of_or m hm) (ih m hm (hp.of_or m hm).plain)
    match members with
    | m :: next :: rest => exact recovered_or hp hclauses

/-- Some comparison is in the text, and so a blank is. -/
theorem blank_mem_render {p : Predicate} (hp : p.IsReduced) : ' ' ∈ p.render := by
  rcases hp.leads with ⟨c, rfl⟩ | ⟨m, t, hlead, -⟩
  · rw [render, Comparison.render_eq]
    have hkeyword := List.mem_of_head? c.head?_keyword
    simp [hkeyword]
  · rw [hlead.render_eq]
    cases hlead with
    | not c => exact List.mem_append_left _ (by simp [clause, bracketed, render])
    | and m next rest => simp
    | or m next rest => simp

/-- Predicates of the same text are the same: no constant, whatever is in it, is taken for another
part of the text. -/
theorem eq_of_display_eq {p q : Predicate} (hp : p.IsNormal) (hq : q.IsNormal)
    (hplain : ∀ c ∈ p.comparisons, c.IsPlain) (hplain' : ∀ c ∈ q.comparisons, c.IsPlain)
    (h : p.display = q.display) : p = q := by
  have htext : p.render = q.render := String.ofList_injective h
  have halways {p : Predicate} (hp : p.IsReduced) : p.render ≠ always.render := by
    intro heq
    have hblank := blank_mem_render hp
    rw [heq] at hblank
    exact absurd hblank (by decide)
  rcases hp with rfl | hp
  · rcases hq with rfl | hq
    · rfl
    · exact absurd htext.symm (halways hq)
  · rcases hq with rfl | hq
    · exact absurd htext (halways hp)
    · exact (recovered_render hp hplain ⟨hq, hplain'⟩ (r := [')']) rfl rfl (by rw [htext])).1

/-- Constants with quotes, brackets and keywords: nothing else has this text. -/
theorem eq_of_display_eq_quotes :
    let p : Predicate :=
      .and [.compare (.equal (.plain ⟨.root, "name"⟩) (.text "x') OR (name = 'y")),
        .not (.compare (.like (.lower ⟨.join 0, "title"⟩) "%' AND %"))]
    p.display = "(name = 'x'') OR (name = ''y') AND NOT (LOWER(j0.title) LIKE '%'' AND %')" ∧
      p.IsNormal ∧ (∀ c ∈ p.comparisons, c.IsPlain) ∧
      ∀ q : Predicate, q.IsNormal → (∀ c ∈ q.comparisons, c.IsPlain) →
        q.display = p.display → q = p := by
  intro p
  have hnormal : p.IsNormal := by
    refine .inr (.and (by decide) ?_)
    simp only [List.forall_mem_cons]
    exact ⟨.compare _, .not _, nofun⟩
  have hplain : ∀ c ∈ p.comparisons, c.IsPlain := by
    simp only [p, comparisons, comparisonsOf, List.singleton_append, List.forall_mem_cons]
    refine ⟨⟨⟨by decide, fun _ => by decide⟩, ?_⟩, ⟨⟨by decide, nofun⟩, ?_⟩, nofun⟩
    · simp [Comparison.arguments, Value.Floatless]
    · simp [Comparison.arguments, Value.Floatless]
  exact ⟨by decide, hnormal, hplain, fun q hq hplain' h =>
    eq_of_display_eq hq hnormal hplain' hplain h⟩

end Criteria.Predicate
