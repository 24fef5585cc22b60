import Mathlib.Tactic.MkIffOfInductiveProp
import TransitAudit.Proofs.Failure
import TransitAudit.Proofs.Json.Normal
import TransitAudit.Report.Record

/-! The record of a summary loses nothing: reading it back gives the summary that was written. What
cannot be read back could not have been held in the first place: counts and sizes beyond 64 bits,
and further values that are not in normal form. -/
namespace TransitAudit

open Json

/-! The fields of an object -/

namespace Json.Value

variable {names : List String} {name : String} {ms : Members}

theorem filter_eq_lookup (h : (ms.map (·.1)).Nodup) :
    ms.filter (·.1 == name) = ((ms.lookup name).map fun v => (name, v)).toList := by
  induction ms with
  | nil => rfl
  | cons m ms ih =>
    obtain ⟨hm, hms⟩ := List.nodup_cons.mp h
    rw [List.filter_cons, ih hms, List.lookup_cons]
    by_cases heq : m.1 = name
    · have hnone : ms.lookup m.1 = none := by
        rw [List.lookup_eq_none_iff]
        intro x hx
        rw [bne_iff_ne]
        intro hsame
        exact hm (List.mem_map.mpr ⟨x, hx, hsame.symm⟩)
      rw [← heq, hnone, beq_self_eq_true]
      rfl
    · rw [beq_eq_false_iff_ne.mpr heq, beq_eq_false_iff_ne.mpr (Ne.symm heq)]
      rfl

/-- In an object that repeats no name, the fields of a record are found by their names. -/
theorem fields?_object (h : (ms.map (·.1)).Nodup) :
    fields? names (.object ms) = some (names.map fun name => ms.lookup name) := by
  rw [fields?, mapM_eq_some_iff, List.forall₂_map_right_iff, List.forall₂_same]
  intro name _
  rw [filter_eq_lookup h]
  cases ms.lookup name <;> rfl

end Json.Value

/-! Values of fields -/

@[simp] theorem readText?_string (s : String) : readText? (some (.string s)) = some s := rfl

@[simp] theorem nat?_integer {limit n m : Nat} :
    Value.nat? limit (.integer n) = some m ↔ n = m ∧ n < limit := by
  change (if n < limit then some n else none) = some m ↔ _
  rw [Option.ite_none_right_eq_some, Option.some.injEq, and_comm]

@[simp] theorem readCount?_integer {n m : Nat} :
    readCount? (some (.integer n)) = some m ↔ n = m ∧ n < countLimit :=
  nat?_integer

/-- A list is read back if its elements are. -/
@[simp] theorem readList?_array {α : Type} {read : Value → Option α} {write : α → Value}
    {xs : List α} : readList? read (some (.array (xs.map write))) = some xs ↔
      ∀ x ∈ xs, read (write x) = some x := by
  change (xs.map write).mapM read = some xs ↔ _
  rw [mapM_eq_some_iff, List.forall₂_map_left_iff, List.forall₂_same]

/-! Records -/

namespace Duration

/-- The whole seconds fit into 64 bits. -/
def Representable (d : Duration) : Prop :=
  d.seconds < countLimit

theorem ofParts_seconds_subsecond (d : Duration) : ofParts d.seconds d.subsecond = d := by
  rw [ofParts, seconds, subsecond, Nat.div_add_mod']

theorem ofValue?_toValue_iff (d : Duration) :
    ofValue? d.toValue = some d ↔ d.Representable := by
  have hfields : d.toValue.fields? ["secs", "nanos"] =
      some [some (.integer d.seconds), some (.integer d.subsecond)] := by
    rw [toValue, Value.fields?_object (by simp)]
    simp [List.lookup_cons]
  have hsubsecond : d.subsecond < Nat.pow 2 32 :=
    Nat.lt_trans (Nat.mod_lt _ (by decide)) (by decide)
  rw [ofValue?, hfields]
  simp [Option.bind_eq_some_iff, hsubsecond, ofParts_seconds_subsecond, Representable]

end Duration

namespace FileStatus

def Representable (s : FileStatus) : Prop :=
  ∀ count, s = .invalid count → count < countLimit

theorem ofValue?_toValue_iff (s : FileStatus) : ofValue? s.toValue = some s ↔ s.Representable := by
  have hfield (name : String) (v : Value) :
      Value.fields? [name] (.object [(name, v)]) = some [some v] := by
    rw [Value.fields?_object (by simp)]
    simp [List.lookup_cons]
  cases s with
  | valid => simp [ofValue?, toValue, Representable]
  | invalid count => simp [ofValue?, toValue, Representable, hfield, Option.bind_eq_some_iff]
  | error message => simp [ofValue?, toValue, Representable, hfield]
  | skipped reason => simp [ofValue?, toValue, Representable, hfield]

end FileStatus

namespace Finding

/-- Further values are in normal form, as they are in a map of values. -/
def Representable (f : Finding) : Prop :=
  ∀ extra, f.extra = some extra → extra.Ordered ∧ MembersNormal extra

theorem ofName?_name (kind : FindingKind) : FindingKind.ofName? kind.name = some kind := by
  cases kind <;> rfl

/-- Line and further values are absent when there are none. -/
theorem fields?_toValue (f : Finding) : f.toValue.fields? ["type", "message", "line", "extra"] =
    some [some (.string f.kind.name), some (.string f.message),
      f.line.map fun line => .integer line.toNat, f.extra.map .object] := by
  obtain ⟨kind, message, line, extra⟩ := f
  -- the names are distinct whichever of the two are there
  cases line <;> cases extra <;>
    (rw [toValue, Value.fields?_object (by simp)]; simp [List.lookup_cons])

theorem optional?_line (line : Option UInt32) :
    Value.optional? readLine? (line.map fun line => .integer line.toNat) = some line := by
  cases line with
  | none => rfl
  | some line =>
    have hline : readLine? (.integer line.toNat) = some line := by
      have hread : Value.nat? lineLimit (.integer line.toNat) = some line.toNat :=
        nat?_integer.mpr ⟨rfl, line.toNat_lt⟩
      rw [readLine?, hread, Option.map_some, Nat.toUInt32, UInt32.ofNat_toNat]
    exact congrArg (Option.map some) hline

theorem optional?_extra (extra : Option Members) :
    Value.optional? readMembers? (extra.map .object) = some extra ↔
      ∀ ms, extra = some ms → ms.Ordered ∧ MembersNormal ms := by
  cases extra with
  | none => simp [Value.optional?]
  | some ms =>
    change (normalMembers? [] ms).map some = some (some ms) ↔ _
    simp [normalMembers?_eq_self_iff]

theorem ofValue?_toValue_iff (f : Finding) : ofValue? f.toValue = some f ↔ f.Representable := by
  rw [ofValue?, fields?_toValue, Representable, ← optional?_extra]
  obtain ⟨kind, message, line, extra⟩ := f
  simp [choice?, Value.string?, ofName?_name, optional?_line, Option.bind_eq_some_iff]

example :
    ofValue? (((quality "far").withLine 3).withExtra "at" (.array [.null, .integer 1])).toValue =
      some (((quality "far").withLine 3).withExtra "at" (.array [.null, .integer 1])) := by rfl

end Finding

namespace RuleResult

@[mk_iff]
structure Representable (r : RuleResult) : Prop where
  errorCount : r.errorCount < countLimit
  errors : ∀ f ∈ r.errors, f.Representable

theorem fields?_toValue (r : RuleResult) :
    r.toValue.fields? ["name", "description", "valid", "error_count", "errors"] =
      some [some (.string r.name), some (.string r.description), some (.bool r.valid),
        some (.integer r.errorCount), some (.array (r.errors.map Finding.toValue))] := by
  rw [toValue, Value.fields?_object (by simp)]
  simp [List.lookup_cons]

theorem ofValue?_toValue_iff (r : RuleResult) :
    ofValue? r.toValue = some r ↔ r.Representable := by
  rw [ofValue?, fields?_toValue, representable_iff]
  obtain ⟨name, description, valid, errorCount, errors⟩ := r
  simp [Value.bool?, Finding.ofValue?_toValue_iff, Option.bind_eq_some_iff]

end RuleResult

namespace FileResult

@[mk_iff]
structure Representable (r : FileResult) : Prop where
  size : ∀ size, r.size = some size → size < countLimit
  status : r.status.Representable
  rules : ∀ x ∈ r.rules, x.Representable
  duration : r.duration.Representable

theorem fields?_toValue (r : FileResult) :
    r.toValue.fields? ["path", "file_size", "schema", "status", "rules", "duration"] =
      some [some (.string r.path), some ((r.size.map fun n => Value.integer n).getD .null),
        some ((r.schema.map Value.string).getD .null), some r.status.toValue,
        some (.array (r.rules.map RuleResult.toValue)), some r.duration.toValue] := by
  rw [toValue, Value.fields?_object (by simp)]
  simp [List.lookup_cons]

theorem optional?_size (size : Option Nat) :
    Value.optional? (Value.nat? countLimit) (some ((size.map fun n => Value.integer n).getD .null)) =
      some size ↔ ∀ n, size = some n → n < countLimit := by
  cases size <;> simp [Value.optional?]

theorem optional?_schema (schema : Option String) :
    Value.optional? Value.string? (some ((schema.map Value.string).getD .null)) = some schema := by
  cases schema <;> rfl

theorem ofValue?_toValue_iff (r : FileResult) :
    ofValue? r.toValue = some r ↔ r.Representable := by
  rw [ofValue?, fields?_toValue, representable_iff, ← optional?_size]
  obtain ⟨path, size, schema, status, rules, duration⟩ := r
  simp [optional?_schema, FileStatus.ofValue?_toValue_iff, RuleResult.ofValue?_toValue_iff,
    Duration.ofValue?_toValue_iff, Option.bind_eq_some_iff]

end FileResult

namespace AuditSummary

/-- The fields of a summary can hold what is in it. -/
@[mk_iff]
structure Representable (s : AuditSummary) : Prop where
  total : s.total < countLimit
  valid : s.valid < countLimit
  invalid : s.invalid < countLimit
  errors : s.errors < countLimit
  skipped : s.skipped < countLimit
  totalDuration : s.totalDuration.Representable
  averageDuration : s.averageDuration.Representable
  files : ∀ r ∈ s.files, r.Representable

/-- The moment of the report is not a field of the summary. -/
theorem fields?_toValue (s : AuditSummary) (generatedAt : Timestamp) :
    (s.toValue generatedAt).fields? ["total_files", "valid_files", "invalid_files", "error_files",
      "skipped_files", "total_duration", "average_duration", "file_results"] =
      some [some (.integer s.total), some (.integer s.valid), some (.integer s.invalid),
        some (.integer s.errors), some (.integer s.skipped), some s.totalDuration.toValue,
        some s.averageDuration.toValue, some (.array (s.files.map FileResult.toValue))] := by
  rw [toValue, members, Value.fields?_object (by simp)]
  simp [List.lookup_cons]

/-- The record of a summary, written at any moment, is read back as the summary itself, if the
fields of the summary can hold what is in it, and only then. -/
theorem report_loses_nothing (s : AuditSummary) (generatedAt : Timestamp) :
    ofValue? (s.toValue generatedAt) = some s ↔ s.Representable := by
  rw [ofValue?, fields?_toValue, representable_iff]
  obtain ⟨total, valid, invalid, errors, skipped, totalDuration, averageDuration, files⟩ := s
  simp [Duration.ofValue?_toValue_iff, FileResult.ofValue?_toValue_iff, Option.bind_eq_some_iff]

end AuditSummary

end TransitAudit
