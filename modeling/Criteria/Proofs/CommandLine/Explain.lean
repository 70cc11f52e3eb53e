import Criteria.CommandLine.Command
import Criteria.Proofs.Condition.Joins
import Criteria.Proofs.Json.Parsing
import Criteria.Proofs.Json.SortedFields
import Criteria.Proofs.Plan.Acceptance

/-!
# Explanations that are answered

A condition passes two gates before it is explained: its criteria are checked when it is read,
and it is compiled after that. Compilation refuses nothing that has been checked, so what is
answered is always the explanation of a plan. A condition that does not pass the check has no
explanation: the command fails with the error of the check.

## Main definitions

- `Explanation.Renders`, `Explanation.Refuses`: what the document of an explanation says

## Main statements

- `Command.outcome_explain`: the explanation of the condition in a file
- `Command.explain_answers`: when there is an explanation, and what it says
-/

namespace Criteria

namespace Explanation

/-- The document accepts a condition and renders its plan. -/
structure Renders (doc : Json) (p : Plan) : Prop where
  accepted : doc.get? "accepted" = some (.bool true)
  predicate : doc.get? "predicate" = some (.text p.predicate.display)
  traversals : doc.get? "traversals" = some (.array (p.traversals.map fun t => .text t.display))
  distinct : doc.get? "distinct" = some (.bool p.distinct)
  skipped : doc.get? "skipped_parameters" = some (.ofNat p.skipped)
  code : doc.get? "rejection_code" = some .null
  reason : doc.get? "rejection_reason" = some .null

/-- The document refuses a condition with the code and the wording of an error. -/
structure Refuses (doc : Json) (e : ConditionError) : Prop where
  accepted : doc.get? "accepted" = some (.bool false)
  predicate : doc.get? "predicate" = some .null
  traversals : doc.get? "traversals" = some (.array [])
  distinct : doc.get? "distinct" = some (.bool false)
  skipped : doc.get? "skipped_parameters" = some (.ofNat 0)
  code : doc.get? "rejection_code" = some (.text e.code)
  reason : doc.get? "rejection_reason" = some (.text e.message)

theorem renders_ofPlan (p : Plan) : Renders (ofPlan p).toJson p := by
  constructor
  all_goals
    simp only [ofPlan, toJson, Json.ofFields, Json.get?, List.map_map]
    simp [Json.sortFields, Json.lookup?_insertField, Function.comp_def]

theorem refuses_ofError (e : ConditionError) : Refuses (ofError e).toJson e := by
  constructor
  all_goals
    simp only [ofError, toJson, Json.ofFields, Json.get?]
    simp [Json.sortFields, Json.lookup?_insertField]

/-- An explanation as it is answered: its document and its text. -/
def answer (e : Explanation) : Json :=
  .ofFields [("plan", e.toJson), ("text", .text e.display)]

theorem get?_answer (e : Explanation) :
    e.answer.get? "plan" = some e.toJson ∧ e.answer.get? "text" = some (.text e.display) := by
  simp [answer, Json.ofFields, Json.get?, Json.sortFields, Json.lookup?_insertField]

end Explanation

namespace Files

theorem outcome_condition (files : Files) (name : String) :
    (files.condition (some name)).outcome =
      (files.text name).bind fun text => (Condition.ofText text).outcome.mapError .condition := by
  rw [condition, Logged.outcome_bind]
  rfl

/-- The condition of a command has been checked, wherever it comes from. -/
theorem check_of_condition {files : Files} {name : Option String} {c : Condition}
    (h : (files.condition name).outcome = .ok c) : c.check = .ok () := by
  cases name with
  | none =>
    cases h
    rfl
  | some name =>
    rw [files.outcome_condition] at h
    cases htext : files.text name with
    | error e =>
      rw [htext] at h
      cases h
    | ok text =>
      rw [htext, Except.bind] at h
      cases hread : (Condition.ofText text).outcome with
      | error e =>
        rw [hread] at h
        cases h
      | ok read =>
        rw [hread] at h
        cases h
        exact Condition.check_of_ofText hread

end Files

namespace Command

variable (settings : Settings) (files : Files) (purpose : Purpose)

theorem outcome_explain (condition : Option String) :
    ((explain condition purpose).run settings files).outcome =
      (files.condition condition).outcome.map fun c =>
        (Explanation.ofOutcome (c.compile purpose)).answer := by
  rw [run, Logged.outcome_bind]
  cases (files.condition condition).outcome with
  | error e => rfl
  | ok c =>
    simp only [Except.bind]
    rw [Logged.outcome_bind]
    rfl

theorem outcome_explain_of_check {c : Condition} {condition : Option String}
    (h : (files.condition condition).outcome = .ok c) (hcheck : c.check = .ok ()) :
    c.compile purpose = .ok (c.plan purpose) ∧
      ((explain condition purpose).run settings files).outcome =
        .ok (Explanation.ofPlan (c.plan purpose)).answer := by
  have hcompile := Condition.compile_eq_ok_of_accepted (Condition.accepted_of_check hcheck) purpose
  refine ⟨hcompile, ?_⟩
  rw [outcome_explain, h, Except.map, hcompile]
  rfl

/-- The command that explains a condition, for documents and for numbers.

1. A file that is read as a condition is explained if the condition passes the check of all its
   criteria, even of those that no plan depends on: it has a plan, and the explanation of that is
   the answer. Otherwise the command fails with the error of the check.
2. Without a file the condition that asks for nothing is explained.
3. Whatever is answered is the explanation of the plan of a condition.
4. The explanation of a plan renders its parts, and that of an error has its code and its
   wording. -/
theorem explain_answers :
    (∀ {name text c}, files.text name = .ok text →
      (Condition.reader.readText text).outcome = .ok c →
        (c.check = .ok () → ∃ p, c.compile purpose = .ok p ∧
          ((explain (some name) purpose).run settings files).outcome =
            .ok (Explanation.ofPlan p).answer) ∧
        ∀ {e}, c.check = .error e →
          ((explain (some name) purpose).run settings files).outcome = .error (.condition e)) ∧
    (∃ p, Condition.compile {} purpose = .ok p ∧
      ((explain none purpose).run settings files).outcome = .ok (Explanation.ofPlan p).answer) ∧
    (∀ {condition doc}, ((explain condition purpose).run settings files).outcome = .ok doc →
      ∃ c p, Condition.compile c purpose = .ok p ∧ doc = (Explanation.ofPlan p).answer) ∧
    (∀ p, ∃ doc, (Explanation.ofPlan p).answer.get? "plan" = some doc ∧
      Explanation.Renders doc p) ∧
    ∀ e, ∃ doc, (Explanation.ofError e).answer.get? "plan" = some doc ∧
      Explanation.Refuses doc e := by
  refine ⟨fun {name text c} htext hread => ?_, ?_, fun {condition doc} hdoc => ?_, fun p => ?_,
    fun e => ?_⟩
  · have hsource : (files.condition (some name)).outcome =
        (c.check.map fun _ => c).mapError .condition := by
      rw [files.outcome_condition, htext, Except.bind, Condition.outcome_ofText_of_read hread]
    constructor
    · intro hcheck
      rw [hcheck] at hsource
      exact ⟨_, outcome_explain_of_check settings files purpose hsource hcheck⟩
    · intro e hcheck
      rw [outcome_explain, hsource, hcheck]
      rfl
  · -- there is nothing to check in the condition that asks for nothing
    have hcheck : Condition.check {} = .ok () := rfl
    exact ⟨_, outcome_explain_of_check settings files purpose rfl hcheck⟩
  · rw [outcome_explain] at hdoc
    cases hsource : (files.condition condition).outcome with
    | error e =>
      rw [hsource] at hdoc
      cases hdoc
    | ok c =>
      -- wherever the condition comes from, it has passed the check, so it has a plan
      have hcheck := Files.check_of_condition hsource
      obtain ⟨hcompile, hanswer⟩ := outcome_explain_of_check settings files purpose hsource hcheck
      rw [outcome_explain, hdoc] at hanswer
      exact ⟨c, _, hcompile, Except.ok.inj hanswer⟩
  · exact ⟨_, (Explanation.get?_answer _).1, Explanation.renders_ofPlan p⟩
  · exact ⟨_, (Explanation.get?_answer _).1, Explanation.refuses_ofError e⟩

/-- Documents of an age between bounds. -/
def aged (bounds : List Value) : Condition where
  filter := { criteria := [⟨"age", .list bounds, .between⟩] }

theorem readText_aged {bounds : List Value} (hbounds : Value.AllReadable bounds)
    (hdepth : (aged bounds).toJson.depth ≤ maxDepth) :
    (Condition.reader.readText (aged bounds).toJson.compact).outcome = .ok (aged bounds) := by
  have htidy : (aged bounds).Tidy := ⟨.nil, .nil⟩
  have hvalues : ∀ v ∈ (aged bounds).values, v.Readable := by
    intro v hv
    obtain rfl := List.mem_singleton.mp hv
    rwa [Value.Readable]
  exact Reader.outcome_readText (Condition.legible_toJson htidy hvalues)
    (Condition.reads_toJson htidy hvalues (Json.rearranged_refl _) hdepth)

def agedPair : Condition :=
  aged [.int 18, .int 30]

/-- One bound too many. -/
def agedTriple : Condition :=
  aged [.int 18, .int 30, .int 65]

theorem readText_agedPair :
    (Condition.reader.readText agedPair.toJson.compact).outcome = .ok agedPair :=
  readText_aged (by simp only [Value.AllReadable, Value.Readable]; decide) (by decide)

theorem readText_agedTriple :
    (Condition.reader.readText agedTriple.toJson.compact).outcome = .ok agedTriple :=
  readText_aged (by simp only [Value.AllReadable, Value.Readable]; decide) (by decide)

def agedFiles : Files
  | "pair.json" => .ok agedPair.toJson.compact
  | "triple.json" => .ok agedTriple.toJson.compact
  | _ => .error "No such file or directory (os error 2)"

/-- The error of the bound too many. -/
def agedError : ConditionError :=
  .unfitValue "age" .between "expected a [lower, upper] pair, found a list"

theorem explain_answers_aged :
    (∃ p, agedPair.compile .documents = .ok p ∧
      ((explain (some "pair.json") .documents).run {} agedFiles).outcome =
        .ok (Explanation.ofPlan p).answer) ∧
    ((explain (some "triple.json") .documents).run {} agedFiles).outcome =
      .error (.condition agedError) := by
  obtain ⟨hread, -⟩ := explain_answers {} agedFiles .documents
  exact ⟨(hread rfl readText_agedPair).1 rfl, (hread rfl readText_agedTriple).2 rfl⟩

/-- The bound too many is an error of the compilation, which is not explained: the command
fails with it. -/
theorem explain_fails :
    agedFiles.text "triple.json" = .ok agedTriple.toJson.compact ∧
      (Condition.reader.readText agedTriple.toJson.compact).outcome = .ok agedTriple ∧
      agedTriple.compile .documents = .error agedError ∧
      ((explain (some "triple.json") .documents).run {} agedFiles).outcome =
        .error (.condition agedError) := by
  have htext : agedFiles.text "triple.json" = .ok agedTriple.toJson.compact := rfl
  have hcheck : agedTriple.check = .error agedError := rfl
  refine ⟨htext, readText_agedTriple, rfl, ?_⟩
  rw [outcome_explain, agedFiles.outcome_condition, htext, Except.bind,
    Condition.outcome_ofText_of_read readText_agedTriple, hcheck]
  rfl

end Command

end Criteria
