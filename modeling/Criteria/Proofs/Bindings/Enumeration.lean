import Criteria.Proofs.Bindings.Unlimited
import Mathlib.Data.List.Induction

/-!
# What the bindings of a document are

A document has one binding for each way of choosing a row of each of its joins, and they come in
the lexicographic order of the positions of the chosen rows.

## Main definitions

- `Traversal.InPreorder`: parents come before their children
- `Traversal.Admits`: the rows that a binding may have for a traversal
- `IsBinding`: each traversal has a row that it admits
- `Picks`: a binding that chooses the rows at given positions
- `Json.picks`: the bindings of a document with the positions that they choose

## Main statements

- `Json.bindings?_exact`: the bindings of a document are those that choose a row of each join,
  each choice once and in order
-/

namespace Criteria

namespace Traversal

/-- Each parent comes before its children. -/
def InPreorder (ts : List Traversal) : Prop :=
  ∀ (i : Nat) (t : Traversal) (parent : Nat),
    ts[i]? = some t → t.parent = some parent → parent < i

theorem InPreorder.of_concat {ts : List Traversal} {t : Traversal}
    (h : InPreorder (ts ++ [t])) : InPreorder ts := by
  intro i u parent hu hparent
  have hi : i < ts.length := (List.getElem?_eq_some_iff.mp hu).1
  exact h i u parent (by rw [List.getElem?_append_left hi, hu]) hparent

/-- A traversal looks at its parent's row only, so rows of later traversals do not matter. -/
theorem rows_append {t : Traversal} {document : Json} {binding : Binding}
    (h : ∀ parent, t.parent = some parent → parent < binding.length) (more : Binding) :
    t.rows document (binding ++ more) = t.rows document binding := by
  unfold rows base?
  cases hparent : t.parent with
  | none => rfl
  | some parent => simp only [List.getElem?_append_left (h parent hparent)]

/-- A traversal is met once its parent has a row, and the rows of later ones change nothing. -/
theorem InPreorder.choices_append {ts : List Traversal} (h : InPreorder ts) {document : Json}
    {i : Nat} {t : Traversal} (ht : ts[i]? = some t) {binding : Binding}
    (hi : i ≤ binding.length) (more : Binding) :
    t.choices document (binding ++ more) = t.choices document binding := by
  have hparent : ∀ parent, t.parent = some parent → parent < binding.length := by
    intro parent hparent
    have hlt := h i t parent ht hparent
    omega
  rw [choices, choices, rows_append hparent]

/-- A binding may have one of the rows of a traversal, or none where the traversal has no rows
and keeps unmatched documents. -/
def Admits (t : Traversal) (document : Json) (binding : Binding) (row : Option Json) : Prop :=
  (t.rows document binding ≠ [] ∧ ∃ r ∈ t.rows document binding, row = some r) ∨
    (t.rows document binding = [] ∧ (t.kind = .left ∨ t.kind = .full) ∧ row = none)

theorem mem_choices_iff {t : Traversal} {document : Json} {binding : Binding}
    {row : Option Json} : row ∈ t.choices document binding ↔ t.Admits document binding row := by
  unfold choices Admits
  cases t.rows document binding with
  | nil => cases t.kind <;> simp [JoinKind.keepsUnmatched]
  | cons r rest => simp [eq_comm]

end Traversal

/-- A binding along traversals has for each of them a row that it admits. -/
def IsBinding (document : Json) (ts : List Traversal) (binding : Binding) : Prop :=
  binding.length = ts.length ∧
    ∀ (i : Nat) (t : Traversal) (row : Option Json),
      ts[i]? = some t → binding[i]? = some row → t.Admits document binding row

/-- A binding along traversals has for each of them the choice at the given position. -/
def Picks (document : Json) (ts : List Traversal) (positions : List Nat) (binding : Binding) :
    Prop :=
  positions.length = ts.length ∧ binding.length = ts.length ∧
    ∀ (i : Nat) (t : Traversal) (n : Nat), ts[i]? = some t → positions[i]? = some n →
      (t.choices document binding)[n]? = binding[i]?

theorem picks_nil_iff {document : Json} {positions : List Nat} {binding : Binding} :
    Picks document [] positions binding ↔ positions = [] ∧ binding = [] := by
  simp [Picks]

private theorem exists_concat_of_length {α : Type} {l : List α} {us : List Traversal}
    {t : Traversal} (h : l.length = (us ++ [t]).length) : ∃ before last, l = before ++ [last] := by
  have hne : l ≠ [] := by
    rintro rfl
    simp at h
  exact ⟨l.dropLast, l.getLast hne, (List.dropLast_concat_getLast hne).symm⟩

/-- Along one more traversal, a choice is added to what is chosen along the others. -/
theorem picks_concat_iff {document : Json} {ts : List Traversal} {t : Traversal}
    (h : Traversal.InPreorder (ts ++ [t])) {positions : List Nat} {n : Nat} {binding : Binding}
    {row : Option Json} :
    Picks document (ts ++ [t]) (positions ++ [n]) (binding ++ [row]) ↔
      Picks document ts positions binding ∧ (t.choices document binding)[n]? = some row := by
  constructor
  · rintro ⟨hpositions, hbinding, hall⟩
    simp only [List.length_append, List.length_singleton, Nat.add_right_cancel_iff]
      at hpositions hbinding
    refine ⟨⟨hpositions, hbinding, fun i u m hu hm => ?_⟩, ?_⟩
    · have hi : i < ts.length := (List.getElem?_eq_some_iff.mp hu).1
      have hu' : (ts ++ [t])[i]? = some u := by rw [List.getElem?_append_left hi, hu]
      have hrow := hall i u m hu' (by rw [List.getElem?_append_left (hpositions ▸ hi), hm])
      rwa [h.choices_append hu' (by omega), List.getElem?_append_left (hbinding ▸ hi)] at hrow
    · have ht : (ts ++ [t])[ts.length]? = some t := List.getElem?_concat_length
      have hrow := hall ts.length t n ht (by rw [← hpositions, List.getElem?_concat_length])
      rwa [h.choices_append ht (by omega), ← hbinding, List.getElem?_concat_length] at hrow
  · rintro ⟨⟨hpositions, hbinding, hall⟩, hrow⟩
    refine ⟨by simp [hpositions], by simp [hbinding], fun i u m hu hm => ?_⟩
    have hi : i < ts.length + 1 := by simpa using (List.getElem?_eq_some_iff.mp hu).1
    rw [h.choices_append hu (by omega)]
    by_cases hlt : i < ts.length
    · rw [List.getElem?_append_left hlt] at hu
      rw [List.getElem?_append_left (hpositions ▸ hlt)] at hm
      rw [List.getElem?_append_left (hbinding ▸ hlt)]
      exact hall i u m hu hm
    · -- the last traversal, with the choice that has been added
      obtain rfl : i = ts.length := by omega
      rw [List.getElem?_concat_length, Option.some_inj] at hu
      rw [← hpositions, List.getElem?_concat_length, Option.some_inj] at hm
      subst hu hm
      rw [← hbinding, List.getElem?_concat_length]
      exact hrow

namespace Json

/-- The bindings of a document along traversals with the positions of the rows they choose. -/
def picks (document : Json) (ts : List Traversal) : List (List Nat × Binding) :=
  ts.foldl (fun found t => found.flatMap fun (positions, binding) =>
    (t.choices document binding).zipIdx.map fun (row, n) =>
      (positions ++ [n], binding ++ [row])) [([], [])]

theorem picks_concat (document : Json) (ts : List Traversal) (t : Traversal) :
    document.picks (ts ++ [t]) =
      (document.picks ts).flatMap fun (positions, binding) =>
        (t.choices document binding).zipIdx.map fun (row, n) =>
          (positions ++ [n], binding ++ [row]) := by
  rw [picks, List.foldl_append]
  rfl

/-- Without their positions, the picks are the bindings. -/
theorem map_snd_picks (document : Json) (ts : List Traversal) :
    (document.picks ts).map Prod.snd = document.allBindings ts := by
  induction ts using List.reverseRecOn with
  | nil => rfl
  | append_singleton ts t ih =>
    rw [picks_concat, allBindings_concat, ← ih, List.map_flatMap, List.flatMap_map]
    congr 1
    funext ⟨positions, binding⟩
    rw [Traversal.extensions_eq, List.map_map]
    conv_rhs => rw [← List.zipIdx_map_fst 0 (t.choices document binding)]
    rw [List.map_map]
    rfl

theorem mem_picks_iff {document : Json} {ts : List Traversal} (h : Traversal.InPreorder ts)
    {positions : List Nat} {binding : Binding} :
    (positions, binding) ∈ document.picks ts ↔ Picks document ts positions binding := by
  induction ts using List.reverseRecOn generalizing positions binding with
  | nil => simp [picks, picks_nil_iff]
  | append_singleton ts t ih =>
    rw [picks_concat, List.mem_flatMap]
    constructor
    · rintro ⟨⟨before, rows⟩, hmem, hlast⟩
      obtain ⟨⟨row, n⟩, hrow, heq⟩ := List.mem_map.mp hlast
      cases heq
      exact (picks_concat_iff h).mpr
        ⟨(ih h.of_concat).mp hmem, List.mk_mem_zipIdx_iff_getElem?.mp hrow⟩
    · intro hpicks
      obtain ⟨before, n, rfl⟩ := exists_concat_of_length hpicks.1
      obtain ⟨rows, row, rfl⟩ := exists_concat_of_length hpicks.2.1
      obtain ⟨hbefore, hrow⟩ := (picks_concat_iff h).mp hpicks
      exact ⟨(before, rows), (ih h.of_concat).mpr hbefore,
        List.mem_map.mpr ⟨(row, n), List.mk_mem_zipIdx_iff_getElem?.mpr hrow, rfl⟩⟩

/-- Lists of one length that are in lexicographic order stay so with more at their ends. -/
theorem append_lt_append_of_lt {l m : List Nat} (hlength : l.length = m.length) (h : l < m)
    (l' m' : List Nat) : l ++ l' < m ++ m' := by
  induction l generalizing m with
  | nil =>
    obtain rfl := List.length_eq_zero_iff.mp hlength.symm
    exact absurd h (List.lt_irrefl [])
  | cons a l ih =>
    cases m with
    | nil => simp at hlength
    | cons b m =>
      rcases List.cons_lt_cons_iff.mp h with hlt | ⟨rfl, hlt⟩
      · exact List.cons_lt_cons_iff.mpr (.inl hlt)
      · exact List.cons_lt_cons_iff.mpr (.inr ⟨rfl, ih (by simpa using hlength) hlt⟩)

/-- The picks come in the lexicographic order of their positions. -/
theorem pairwise_picks {document : Json} {ts : List Traversal} (h : Traversal.InPreorder ts) :
    ((document.picks ts).map Prod.fst).Pairwise (· < ·) := by
  induction ts using List.reverseRecOn with
  | nil => exact List.pairwise_singleton _ _
  | append_singleton ts t ih =>
    rw [picks_concat, List.map_flatMap, List.pairwise_flatMap]
    refine ⟨fun ⟨positions, binding⟩ _ => ?_, ?_⟩
    · -- the choices at one binding differ in the last position only
      have hpositions : ((t.choices document binding).zipIdx.map Prod.snd).Pairwise (· < ·) := by
        rw [List.zipIdx_map_snd]
        exact List.pairwise_lt_range'
      rw [List.map_map, List.pairwise_map]
      refine (List.pairwise_map.mp hpositions).imp fun {x y} hlt => ?_
      exact List.append_left_lt (List.cons_lt_cons_iff.mpr (.inl hlt))
    · refine (List.pairwise_map.mp (ih h.of_concat)).imp_of_mem ?_
      rintro ⟨ps, b⟩ ⟨qs, c⟩ hps hqs hlt xs hxs ys hys
      have hlength : ps.length = qs.length := by
        rw [((mem_picks_iff h.of_concat).mp hps).1, ((mem_picks_iff h.of_concat).mp hqs).1]
      simp only [List.map_map, List.mem_map] at hxs hys
      obtain ⟨x, -, rfl⟩ := hxs
      obtain ⟨y, -, rfl⟩ := hys
      exact append_lt_append_of_lt hlength hlt _ _

end Json

/-- Whatever rows a binding has, they are at some positions. -/
theorem isBinding_iff_exists_picks {document : Json} {ts : List Traversal} {binding : Binding} :
    IsBinding document ts binding ↔ ∃ positions, Picks document ts positions binding := by
  constructor
  · rintro ⟨hlength, hall⟩
    have hpositions (i : Fin ts.length) :
        ∃ n : Nat, (ts[i].choices document binding)[n]? = binding[i.val]? := by
      have hi : i.val < binding.length := by omega
      have hmem : binding[i.val] ∈ ts[i].choices document binding :=
        Traversal.mem_choices_iff.mpr (hall i ts[i] binding[i.val] (by simp) (by simp))
      obtain ⟨n, hn⟩ := List.mem_iff_getElem?.mp hmem
      exact ⟨n, by rw [hn, List.getElem?_eq_getElem hi]⟩
    -- each row of the binding stands at some position among the choices
    choose position hposition using hpositions
    refine ⟨List.ofFn position, List.length_ofFn, hlength, fun i t n ht hn => ?_⟩
    obtain ⟨hi, rfl⟩ := List.getElem?_eq_some_iff.mp ht
    obtain ⟨_, rfl⟩ := List.getElem?_eq_some_iff.mp hn
    rw [List.getElem_ofFn]
    exact hposition ⟨i, hi⟩
  · rintro ⟨positions, hpositions, hlength, hall⟩
    refine ⟨hlength, fun i t row ht hrow => Traversal.mem_choices_iff.mp ?_⟩
    have hi : i < positions.length := hpositions ▸ (List.getElem?_eq_some_iff.mp ht).1
    have hchoice := hall i t positions[i] ht (List.getElem?_eq_getElem hi)
    exact List.mem_of_getElem? (hchoice.trans hrow)

/-- The bindings of a document, if there are not too many, are those that choose a row of each
join: each choice of positions occurs once, in lexicographic order. -/
theorem Json.bindings?_exact {document : Json} {ts : List Traversal} {limit : Nat}
    {bindings : List Binding} (hts : Traversal.InPreorder ts)
    (h : document.bindings? ts limit = .ok bindings) :
    (∃ choices : List (List Nat), choices.length = bindings.length ∧
      choices.Pairwise (· < ·) ∧
      ∀ positions binding, (positions, binding) ∈ choices.zip bindings ↔
        Picks document ts positions binding) ∧
    (∀ binding, binding ∈ bindings ↔ IsBinding document ts binding) ∧
    ∀ limit' bindings', document.bindings? ts limit' = .ok bindings' → bindings' = bindings := by
  obtain rfl := Json.eq_allBindings h
  refine ⟨⟨(document.picks ts).map Prod.fst, ?_, pairwise_picks hts, ?_⟩, ?_, ?_⟩
  · rw [← map_snd_picks, List.length_map, List.length_map]
  · intro positions binding
    rw [← map_snd_picks, ← mem_picks_iff hts, List.zip_map']
    simp
  · intro binding
    rw [isBinding_iff_exists_picks, ← map_snd_picks, List.mem_map]
    constructor
    · rintro ⟨⟨positions, _⟩, hmem, rfl⟩
      exact ⟨positions, (mem_picks_iff hts).mp hmem⟩
    · rintro ⟨positions, hpicks⟩
      exact ⟨(positions, binding), (mem_picks_iff hts).mpr hpicks, rfl⟩
  · exact fun limit' bindings' h' => Json.eq_allBindings h'

/-- The comments of a post with their users, and the tags of the post. -/
def commentTraversals : List Traversal :=
  [⟨0, none, "comments", .left, .join⟩, ⟨1, some 0, "user", .left, .join⟩,
    ⟨2, none, "tags", .inner, .fetch⟩]

/-- A post with two comments, the second of which has no user. -/
def commentedPost : Json :=
  .object
    [("comments", .array
      [.object [("user", .text "ann")], .null, .object [("user", .null)]]),
     ("tags", .array [.text "a", .text "b"])]

/-- The bindings of the post: each comment with its user, if it has one, and with each tag. -/
def commentedPostBindings : List Binding :=
  let ann := [some (.object [("user", .text "ann")]), some (.text "ann")]
  let nobody := [some (.object [("user", .null)]), none]
  [ann ++ [some (.text "a")], ann ++ [some (.text "b")],
    nobody ++ [some (.text "a")], nobody ++ [some (.text "b")]]

theorem bindings?_exact_commentedPost :
    Traversal.InPreorder commentTraversals ∧
      commentedPost.bindings? commentTraversals 4 = .ok commentedPostBindings ∧
      ∀ binding, binding ∈ commentedPostBindings ↔
        IsBinding commentedPost commentTraversals binding := by
  have hts : Traversal.InPreorder commentTraversals := by
    intro i t parent ht hparent
    rcases i with - | - | - | i
    · cases ht
      cases hparent
    · cases ht
      cases hparent
      omega
    · cases ht
      cases hparent
    · cases ht
  have h : commentedPost.bindings? commentTraversals 4 = .ok commentedPostBindings := rfl
  obtain ⟨-, hexact, -⟩ := Json.bindings?_exact hts h
  exact ⟨hts, h, hexact⟩

end Criteria
