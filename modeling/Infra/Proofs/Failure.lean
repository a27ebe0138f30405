import Infra.Failure
import Infra.Proofs.Named

/-!
# The context of a failure

What a failure is told after it was made shows in its report: under the name of a field the value
last given, unless it is null, and under any other name the value last given, but for the names that
the context object answers to itself. A value under one of these shows nowhere, and after a value
under `to_dict` or a class under `__class__` there is no report, unless a value stands in.

* `Context.assign_cases`, `Context.listing_assign` : what one addition does;
  `Context.told` : several additions;
* `Context.lookup_fields_told`, `Context.lookup_free_told`, `Context.listing_told`,
  `Context.foreign_told` : what they leave;
* `Context.lookup_entries` : what a listed context has under a name;
* `Failure.foldl_withContext` : several calls are one with all that they accept;
* `Failure.lookup_report` : what a report has under a name;
* `Failure.report_withContext` : the report after any calls.
-/

namespace Infra

namespace Context

variable {c : Context} {name : String}

/-- The names of the fields. -/
def fieldNames : List String := ["unit", "entity", "attribute", "backend"]

/-! ## One addition -/

/-- An addition sets a field, or is one under an own name of the object, or sets a free entry. -/
theorem assign_cases (c : Context) (name : String) (value : Datum) :
    (name ∈ fieldNames ∧ (c.assign name value).fields = Named.insert c.fields name value ∧
      (c.assign name value).free = c.free ∧ (c.assign name value).listing = c.listing) ∨
    (name ∉ fieldNames ∧ name ∈ ownNames ∧
      c.assign name value = { c with listing := c.listing.after name value }) ∨
    (name ∉ fieldNames ∧ name ∉ ownNames ∧
      c.assign name value = { c with free := Named.insert c.free name value }) := by
  by_cases field : name ∈ fieldNames
  · refine .inl ⟨field, ?_⟩
    simp only [fieldNames, List.mem_cons, List.not_mem_nil, or_false] at field
    rcases field with rfl | rfl | rfl | rfl
    · exact ⟨rfl, rfl, rfl⟩
    · exact ⟨rfl, rfl, rfl⟩
    · exact ⟨rfl, rfl, rfl⟩
    · exact ⟨rfl, rfl, rfl⟩
  · have other := field
    simp only [fieldNames, List.mem_cons, List.not_mem_nil, or_false, not_or] at other
    obtain ⟨unit, entity, accessor, backend⟩ := other
    rw [assign, if_neg unit, if_neg entity, if_neg accessor, if_neg backend]
    by_cases own : name ∈ ownNames
    · exact .inr (.inl ⟨field, own, if_pos (List.contains_iff_mem.mpr own)⟩)
    · exact .inr (.inr ⟨field, own, if_neg fun known => own (List.contains_iff_mem.mp known)⟩)

theorem not_mem_ownNames_of_field : ∀ name ∈ fieldNames, name ∉ ownNames := by
  decide +kernel

theorem Listing.after_of_not_mem (listing : Listing) (other : name ∉ ownNames) (value : Datum) :
    listing.after name value = listing := by
  unfold Listing.after
  split
  · exact absurd (by decide +kernel) other
  · exact absurd (by decide +kernel) other
  · exact absurd (by decide +kernel) other
  · rfl

theorem listing_assign (c : Context) (name : String) (value : Datum) :
    (c.assign name value).listing = c.listing.after name value := by
  rcases assign_cases c name value with ⟨field, -, -, kept⟩ | ⟨-, -, eq⟩ | ⟨-, new, eq⟩
  · rw [kept, Listing.after_of_not_mem _ (not_mem_ownNames_of_field _ field)]
  · rw [eq]
  · rw [eq, Listing.after_of_not_mem _ new]

/-- The names that listing needs. -/
def listingNames : List String := ["to_dict", "__class__", "__dict__"]

theorem Listing.after_eq_own {listing : Listing} {value : Datum} :
    listing.after name value = .own ↔ listing = .own ∧ name ∉ listingNames := by
  unfold Listing.after
  split
  · cases listing <;> cases isCallable value <;> simp [listingNames]
  · cases listing <;> simp [listingNames]
  · simp [listingNames]
  · next method cls fields =>
    have other : name ∉ listingNames := by
      simpa [listingNames] using ⟨method, cls, fields⟩
    exact (and_iff_left other).symm

theorem Listing.after_eq_foreign {listing : Listing} {value : Datum}
    (after : listing.after name value = .foreign) :
    listing = .foreign ∨ standsIn name value = true := by
  unfold Listing.after at after
  split at after
  · cases called : isCallable value with
    | true => exact .inr called
    | false =>
      rw [called] at after
      cases listing with
      | own | masked | recast => cases after
      | foreign => exact .inl rfl
  · split at after
    · cases after
    · exact .inl after
  · exact .inr rfl
  · exact .inl after

/-! ## Several additions -/

/-- The context after additions that are made one after the other. -/
def told (c : Context) (additions : List (String × Datum)) : Context :=
  additions.foldl (fun c entry => c.assign entry.1 entry.2) c

theorem told_cons (c : Context) (entry : String × Datum) (rest : List (String × Datum)) :
    c.told (entry :: rest) = (c.assign entry.1 entry.2).told rest := rfl

theorem told_append (c : Context) (additions more : List (String × Datum)) :
    c.told (additions ++ more) = (c.told additions).told more := List.foldl_append

theorem fields_told (c : Context) (additions : List (String × Datum)) :
    (c.told additions).fields =
      Named.setAll c.fields (additions.filter fun entry => fieldNames.contains entry.1) := by
  induction additions generalizing c with
  | nil => rfl
  | cons entry rest ih =>
    rw [told_cons, ih, List.filter_cons]
    rcases assign_cases c entry.1 entry.2 with ⟨field, fields, -⟩ | ⟨other, -, eq⟩ | ⟨other, -, eq⟩
    · rw [fields, if_pos (List.contains_iff_mem.mpr field)]
      rfl
    · rw [eq, if_neg fun known => other (List.contains_iff_mem.mp known)]
      rfl
    · rw [eq, if_neg fun known => other (List.contains_iff_mem.mp known)]
      rfl

theorem free_told (c : Context) (additions : List (String × Datum)) :
    (c.told additions).free = Named.setAll c.free (additions.filter fun entry =>
      !(fieldNames ++ ownNames).contains entry.1) := by
  induction additions generalizing c with
  | nil => rfl
  | cons entry rest ih =>
    rw [told_cons, ih, List.filter_cons]
    rcases assign_cases c entry.1 entry.2 with ⟨field, -, free, -⟩ | ⟨-, own, eq⟩ | ⟨other, new, eq⟩
    · rw [free, if_neg (by simp [field])]
    · rw [eq, if_neg (by simp [own])]
    · rw [eq, if_pos (by simp [other, new])]
      rfl

/-- A context lists itself after additions if it did before, and none is under a name that listing
needs. -/
theorem listing_told (c : Context) (additions : List (String × Datum)) :
    (c.told additions).listing = .own ↔
      c.listing = .own ∧ ∀ entry ∈ additions, entry.1 ∉ listingNames := by
  induction additions generalizing c with
  | nil => simp [told]
  | cons entry rest ih =>
    rw [told_cons, ih, listing_assign, Listing.after_eq_own, List.forall_mem_cons, and_assoc]

/-- A value lists a context after additions only if one did before, or one of them stands in. -/
theorem foreign_told (c : Context) (additions : List (String × Datum))
    (foreign : (c.told additions).listing = .foreign) :
    c.listing = .foreign ∨ ∃ entry ∈ additions, standsIn entry.1 entry.2 = true := by
  induction additions generalizing c with
  | nil => exact .inl foreign
  | cons entry rest ih =>
    rcases ih _ foreign with here | ⟨later, mem, stands⟩
    · rw [listing_assign] at here
      rcases Listing.after_eq_foreign here with before | stands
      · exact .inl before
      · exact .inr ⟨entry, List.mem_cons_self, stands⟩
    · exact .inr ⟨later, List.mem_cons_of_mem _ mem, stands⟩

/-! ## The listed context -/

theorem entries_eq (c : Context) :
    c.entries = Named.setAll (c.fields.filter fun field => !field.2.isNull) c.free := rfl

/-- A listed context has the free entry of a name, else the field of this name that is set. -/
theorem lookup_entries (nodup : (c.free.map (·.1)).Nodup) (name : String) :
    c.entries.lookup name =
      (c.free.lookup name).or ((c.fields.lookup name).filter fun value => !value.isNull) := by
  have names : (c.fields.map (·.1)).Nodup := (by decide : fieldNames.Nodup)
  rw [entries_eq, Named.lookup_setAll, Named.lookup_reverse nodup,
    ← Named.lookup_filter_values names]

theorem lookup_fields_told (c : Context) (additions : List (String × Datum))
    (field : name ∈ fieldNames) : (c.told additions).fields.lookup name =
      (additions.reverse.lookup name).or (c.fields.lookup name) := by
  rw [fields_told, Named.lookup_setAll, ← List.filter_reverse,
    Named.lookup_filter _ fieldNames.contains, if_pos (List.contains_iff_mem.mpr field)]

theorem lookup_free_told (c : Context) (additions : List (String × Datum)) (name : String) :
    (c.told additions).free.lookup name =
      if name ∈ fieldNames ∨ name ∈ ownNames then c.free.lookup name
      else (additions.reverse.lookup name).or (c.free.lookup name) := by
  rw [free_told, Named.lookup_setAll, ← List.filter_reverse,
    Named.lookup_filter _ fun name => !(fieldNames ++ ownNames).contains name]
  by_cases known : name ∈ fieldNames ∨ name ∈ ownNames
  · rw [if_pos known, if_neg (by simpa [or_iff_not_imp_left] using known), Option.none_or]
  · rw [if_neg known, if_pos (by simpa using known)]

theorem nodup_free_told (nodup : (c.free.map (·.1)).Nodup) (additions : List (String × Datum)) :
    ((c.told additions).free.map (·.1)).Nodup := by
  rw [free_told]
  exact Named.nodup_setAll nodup _

end Context

namespace Failure

variable {f : Failure}

/-- Several calls that add to the context are one addition of all that they accept. -/
theorem foldl_withContext (f : Failure) (calls : List (List (String × Datum))) :
    calls.foldl withContext f = { f with context := f.context.told (calls.flatMap accepted) } := by
  induction calls generalizing f with
  | nil => rfl
  | cons call rest ih =>
    rw [List.foldl_cons, ih, List.flatMap_cons, Context.told_append]
    rfl

/-- What a report of a failure has beside the context. -/
def plainReport (f : Failure) : List (String × Datum) :=
  [("error_type", .text f.kind.label), ("message", .text f.message),
    ("category", .text f.category.label), ("fatal", .bool f.fatal)] ++
  (f.cause.map fun cause => ("cause", Datum.text cause.message)).toList ++ f.kind.reported

theorem report_eq_made_iff {entries : List (String × Datum)} : f.report = .made entries ↔
    f.context.listing = .own ∧ entries =
      [("error_type", .text f.kind.label), ("message", .text f.message),
        ("category", .text f.category.label), ("fatal", .bool f.fatal)]
      ++ (if f.context.entries.isEmpty then [] else [("context", .record f.context.entries)])
      ++ (f.cause.map fun cause => ("cause", Datum.text cause.message)).toList
      ++ f.kind.reported := by
  unfold report
  cases f.context.listing with
  | own => exact ⟨fun made => ⟨rfl, (Report.made.inj made).symm⟩, fun made => by rw [made.2]⟩
  | masked | recast | foreign => exact ⟨nofun, fun made => nomatch made.1⟩

theorem report_eq_foreign_iff : f.report = .foreign ↔ f.context.listing = .foreign := by
  unfold report
  cases f.context.listing <;> simp

theorem report?_eq_some_iff {entries : List (String × Datum)} :
    f.report? = some entries ↔ f.report = .made entries := by
  unfold report?
  cases f.report <;> simp

theorem isSome_report?_iff : f.report?.isSome ↔ f.context.listing = .own := by
  rw [Option.isSome_iff_exists]
  simp only [report?_eq_some_iff, report_eq_made_iff, exists_and_left, exists_eq, and_true]

theorem lookup_reported (k : Kind) : k.reported.lookup "context" = none := by
  unfold Kind.reported
  split
  · rfl
  · rfl
  · split
    · rfl
    · rfl

/-- A report has the listed context, unless that is empty, and the same as ever beside it. -/
theorem lookup_report {report : List (String × Datum)} (h : f.report? = some report)
    (name : String) : report.lookup name =
      if name = "context" then
        if f.context.entries = [] then none else some (.record f.context.entries)
      else f.plainReport.lookup name := by
  obtain ⟨-, rfl⟩ := report_eq_made_iff.mp (report?_eq_some_iff.mp h)
  simp only [plainReport, List.lookup_append]
  by_cases context : name = "context"
  · subst context
    rw [if_pos rfl, lookup_reported]
    cases entries : f.context.entries with
    | nil => cases f.cause <;> rfl
    | cons entry rest => rfl
  · rw [if_neg context]
    have none : (if f.context.entries.isEmpty then []
        else [("context", Datum.record f.context.entries)]).lookup name = none := by
      split
      · rfl
      · rw [List.lookup_cons, beq_eq_false_iff_ne.mpr context, List.lookup_nil]
    rw [none, Option.or_none]

/-- After any calls that add to the context, made up to what they refuse, a value that was given
lists the context only if one did before or one of the additions stands in. Where none does, there is
a report just if there was one before and no addition is under `to_dict` or `__class__`. The report
that the object itself lists has in its context, under the name of a field, the value last given, or
else the one from before, unless this is null; under any other name, but for the own names of the
object, the value last given; and it has nothing that was given under an own name. A free entry from
before under the name of a field is shown in its place. All else in the report is as before. -/
theorem report_withContext (f : Failure) (calls : List (List (String × Datum)))
    (nodup : (f.context.free.map (·.1)).Nodup) :
    let given := calls.flatMap accepted
    ((calls.foldl withContext f).report = .foreign →
      f.report = .foreign ∨ ∃ entry ∈ given, Context.standsIn entry.1 entry.2 = true) ∧
    ((∀ entry ∈ given, Context.standsIn entry.1 entry.2 = false) →
      ((calls.foldl withContext f).report?.isSome ↔ f.report?.isSome ∧
        ∀ entry ∈ given, entry.1 ≠ "to_dict" ∧ entry.1 ≠ "__class__")) ∧
    ∀ report, (calls.foldl withContext f).report? = some report →
      ∃ context : List (String × Datum),
        report.lookup "context" = (if context = [] then none else some (.record context)) ∧
        (∀ before, f.report? = some before → ∀ name, name ≠ "context" →
          report.lookup name = before.lookup name) ∧
        ∀ name, context.lookup name =
          if name ∈ Context.fieldNames then
            (f.context.free.lookup name).or <|
              ((given.reverse.lookup name).or (f.context.fields.lookup name)).filter
                fun value => !value.isNull
          else if name ∈ Context.ownNames then f.context.free.lookup name
          else (given.reverse.lookup name).or (f.context.free.lookup name) := by
  intro given
  rw [foldl_withContext]
  refine ⟨fun foreign => ?_, fun plain => ?_, fun report shown =>
    ⟨(f.context.told given).entries, ?_, fun before was name other => ?_, fun name => ?_⟩⟩
  · rw [report_eq_foreign_iff] at foreign ⊢
    exact Context.foreign_told _ _ foreign
  · rw [isSome_report?_iff, isSome_report?_iff, Context.listing_told]
    refine and_congr_right fun _ => forall₂_congr fun entry mem => ?_
    have fields : entry.1 ≠ "__dict__" := by
      intro fields
      have stands := plain entry mem
      rw [fields] at stands
      cases stands
    simp [Context.listingNames, fields]
  · rw [lookup_report shown, if_pos rfl]
  · rw [lookup_report shown, lookup_report was, if_neg other, if_neg other]
    rfl
  · rw [Context.lookup_entries (Context.nodup_free_told nodup given), Context.lookup_free_told]
    by_cases field : name ∈ Context.fieldNames
    · rw [if_pos field, if_pos (.inl field), Context.lookup_fields_told _ _ field]
    · have unset : (f.context.told given).fields.lookup name = none :=
        lookup_eq_none_iff_not_mem.mpr field
      rw [if_neg field, unset, Option.filter_none, Option.or_none]
      by_cases own : name ∈ Context.ownNames
      · rw [if_pos own, if_pos (.inr own)]
      · rw [if_neg own, if_neg (not_or.mpr ⟨field, own⟩)]

/-- A failure about a bucket, whose free entries name a unit. -/
def bucketFailure : Failure :=
  make .general "boom" { Options.none with
    context := { Context.empty with
      entity := .text "bucket"
      free := [("unit", .text "a.py")] } }

/-- Two calls that give a field, take one back, give a free entry twice and an own name, and end in
an addition that is refused. -/
def bucketCalls : List (List (String × Datum)) :=
  [[("backend", .text "template"), ("attempt", .int 1)],
    [("entity", .null), ("attempt", .int 2), ("__init__", .bool true), ("__weakref__", .null),
      ("late", .bool true)]]

/-- What these calls leave in the report. -/
theorem report_withContext_bucket : (bucketFailure.context.free.map (·.1)).Nodup ∧
    ∃ report context, (bucketCalls.foldl withContext bucketFailure).report? = some report ∧
      report.lookup "context" = some (.record context) ∧
      context.lookup "unit" = some (.text "a.py") ∧
      context.lookup "backend" = some (.text "template") ∧ context.lookup "entity" = none ∧
      context.lookup "attempt" = some (.int 2) ∧ context.lookup "__init__" = none ∧
      context.lookup "late" = none := by
  have nodup : (bucketFailure.context.free.map (·.1)).Nodup := by decide
  refine ⟨nodup, ?_⟩
  obtain ⟨-, listed, shown⟩ := report_withContext bucketFailure bucketCalls nodup
  obtain ⟨report, made⟩ := Option.isSome_iff_exists.mp <|
    (listed (by decide +kernel)).mpr ⟨rfl, by decide +kernel⟩
  obtain ⟨context, under, -, values⟩ := shown report made
  have unit : context.lookup "unit" = some (.text "a.py") := (values _).trans rfl
  have some : context ≠ [] := by
    rintro rfl
    cases unit
  exact ⟨report, context, made, under.trans (if_neg some), unit, (values _).trans rfl,
    (values _).trans rfl, (values _).trans rfl, (values _).trans rfl, (values _).trans rfl⟩

/-- A failure that is told a text under `to_dict` has no report any more. -/
theorem no_report_after_to_dict :
    (make .general "boom" .none).report?.isSome ∧
      refusal? [("to_dict", .text "x")] = none ∧
      ((make .general "boom" .none).withContext [("to_dict", .text "x")]).report =
        .failing "TypeError" :=
  ⟨rfl, rfl, rfl⟩

end Failure
end Infra
