import Infra.Expr.Evaluation
import Infra.Proofs.Except
import Infra.Proofs.Named

/-!
# Definitions with defaults

A definition with defaults takes them as if they were keywords of every call. So they give way to the
keywords of a call, and meet the arguments that a call gives by position.

* `Eval.Fits params arguments keywords` : what makes a call fit the parameters;
  `Eval.bindArguments_eq_ok_iff`, `Eval.accept_eq_ok_iff` : exactly such calls are accepted;
* `Eval.Receives` : what a parameter has in the scope of the members; `Eval.receives_enter` : the
  value that is bound to it, or else that of its own default;
* `Eval.outermost stack name` : the default that the last layer with that name gives it;
* `Eval.withDefaults_supplies` : which calls a definition accepts after some layers of defaults, and
  what its parameters have.
-/

namespace Infra

/-- A definition has no two parameters and no two defaults of one name. -/
structure Definition.Distinct (d : Definition) : Prop where
  params : (d.params.map (·.1)).Nodup
  defaults : (d.defaults.map (·.1)).Nodup

namespace Eval

variable {params : List (String × Option Expr)} {arguments : List Value}
  {keywords bound : List (String × Value)}

/-! ## Accepted calls -/

/-- The parameters that have values by position. -/
def byPosition (params : List (String × Option Expr)) (arguments : List Value) : List String :=
  (params.map (·.1)).take arguments.length

/-- A call fits the parameters: it has no more positions than they are, its keywords name parameters
without a value by position, and no parameter without a default is left out. -/
structure Fits (params : List (String × Option Expr)) (arguments : List Value)
    (keywords : List (String × Value)) : Prop where
  count : arguments.length ≤ params.length
  known : ∀ name ∈ keywords.map (·.1), name ∈ params.map (·.1)
  once : ∀ name ∈ keywords.map (·.1), name ∉ byPosition params arguments
  filled : ∀ param ∈ params, param.2 = none →
    param.1 ∈ byPosition params arguments ∨ param.1 ∈ keywords.map (·.1)

theorem names_zip (params : List (String × Option Expr)) (arguments : List Value) :
    ((params.map (·.1)).zip arguments).map (·.1) = byPosition params arguments := by
  unfold byPosition
  rw [List.zip_eq_zip_take_min, List.map_fst_zip (by simp), List.take_eq_take_iff]
  omega

theorem checkKeyword_eq_ok_iff {keyword : String × Value} :
    checkKeyword params ((params.map (·.1)).zip arguments) keyword = .ok () ↔
      keyword.1 ∉ byPosition params arguments ∧ keyword.1 ∈ params.map (·.1) := by
  unfold checkKeyword
  simp only [Named.isSome_lookup_iff, Named.isNone_lookup_iff, names_zip]
  by_cases given : keyword.1 ∈ byPosition params arguments
  · rw [if_pos given]
    exact ⟨fun never => (by cases never), fun both => absurd given both.1⟩
  · rw [if_neg given]
    by_cases known : keyword.1 ∈ params.map (·.1)
    · rw [if_neg (not_not.mpr known)]
      exact ⟨fun _ => ⟨given, known⟩, fun _ => rfl⟩
    · rw [if_pos known]
      exact ⟨fun never => (by cases never), fun both => absurd both.2 known⟩

theorem find?_missing_eq_none_iff :
    (params.find? fun param => param.2.isNone && (bound.lookup param.1).isNone) = none ↔
      ∀ param ∈ params, param.2 = none → param.1 ∈ bound.map (·.1) := by
  rw [List.find?_eq_none]
  refine forall₂_congr fun param _ => ?_
  rw [Bool.and_eq_true, Named.isNone_lookup_iff, Option.isNone_iff_eq_none, not_and, not_not]

theorem names_bound (params : List (String × Option Expr)) (arguments : List Value)
    (keywords : List (String × Value)) {name : String} :
    name ∈ ((params.map (·.1)).zip arguments ++ keywords).map (·.1) ↔
      name ∈ byPosition params arguments ∨ name ∈ keywords.map (·.1) := by
  rw [List.map_append, List.mem_append, names_zip]

/-- Exactly the calls that fit are accepted, with the values by position before the keywords. -/
theorem bindArguments_eq_ok_iff : bindArguments params arguments keywords = .ok bound ↔
    Fits params arguments keywords ∧ bound = (params.map (·.1)).zip arguments ++ keywords := by
  unfold bindArguments
  by_cases count : params.length < arguments.length
  · rw [if_pos count]
    refine ⟨fun never => (by cases never), fun both => ?_⟩
    exact absurd both.1.count (by omega)
  rw [if_neg count]
  simp only [bind_eq_ok_iff]
  constructor
  · rintro ⟨⟨⟩, all, last⟩
    have checked := fun keyword inside =>
      checkKeyword_eq_ok_iff.mp (forM_eq_ok_iff.mp all keyword inside)
    split at last
    · cases last
    · next none =>
      cases last
      have filled := find?_missing_eq_none_iff.mp none
      simp only [names_bound] at filled
      refine ⟨⟨by omega, ?_, ?_, filled⟩, rfl⟩
      · rintro name mem
        obtain ⟨keyword, inside, rfl⟩ := List.mem_map.mp mem
        exact (checked keyword inside).2
      · rintro name mem
        obtain ⟨keyword, inside, rfl⟩ := List.mem_map.mp mem
        exact (checked keyword inside).1
  · rintro ⟨fits, rfl⟩
    refine ⟨(), forM_eq_ok_iff.mpr fun keyword inside => checkKeyword_eq_ok_iff.mpr ?_, ?_⟩
    · have mem : keyword.1 ∈ keywords.map (·.1) := List.mem_map_of_mem inside
      exact ⟨fits.once _ mem, fits.known _ mem⟩
    · have none := find?_missing_eq_none_iff.mpr fun param inside required =>
        (names_bound params arguments keywords).mpr (fits.filled param inside required)
      rw [none]
      rfl

/-- A call that fits but for keywords that meet positions is refused because of one of these. -/
theorem failsWith_bindArguments (count : arguments.length ≤ params.length)
    (known : ∀ name ∈ keywords.map (·.1), name ∈ params.map (·.1))
    (filled : ∀ param ∈ params, param.2 = none →
      param.1 ∈ byPosition params arguments ∨ param.1 ∈ keywords.map (·.1)) :
    FailsWith (fun fault => ∃ name ∈ keywords.map (·.1), name ∈ byPosition params arguments ∧
      fault = .wrongType ("multiple values for argument '" ++ name ++ "'"))
      (bindArguments params arguments keywords) := by
  unfold bindArguments
  rw [if_neg (by omega)]
  refine .bind (.forM fun keyword inside => ?_) fun _ => ?_
  · have mem : keyword.1 ∈ keywords.map (·.1) := List.mem_map_of_mem inside
    unfold checkKeyword
    simp only [Named.isSome_lookup_iff, Named.isNone_lookup_iff, names_zip]
    split
    · next given => exact .error ⟨keyword.1, mem, given, rfl⟩
    · rw [if_neg (not_not.mpr (known _ mem))]
      exact .ok ()
  · have none := find?_missing_eq_none_iff.mpr fun param inside required =>
      (names_bound params arguments keywords).mpr (filled param inside required)
    simp only [none]
    exact .ok _

theorem Fits.nodup (fits : Fits params arguments keywords) (distinct : (params.map (·.1)).Nodup)
    (apart : (keywords.map (·.1)).Nodup) :
    (((params.map (·.1)).zip arguments ++ keywords).map (·.1)).Nodup := by
  rw [List.map_append, names_zip]
  refine List.nodup_append'.mpr ⟨(List.take_sublist _ _).nodup distinct, apart, ?_⟩
  exact fun name position mem => fits.once name mem position

theorem accept_eq (d : Definition) (arguments : List Value) (keywords : List (String × Value))
    (free : "self" ∉ keywords.map (·.1)) : accept d arguments keywords =
      bindArguments d.params arguments (Named.setAll d.defaults keywords) := by
  unfold accept
  rw [if_neg (by rwa [Named.isSome_lookup_iff])]
  rfl

theorem accept_eq_ok_iff {d : Definition} : accept d arguments keywords = .ok bound ↔
    "self" ∉ keywords.map (·.1) ∧ Fits d.params arguments (Named.setAll d.defaults keywords) ∧
      bound = (d.params.map (·.1)).zip arguments ++ Named.setAll d.defaults keywords := by
  by_cases taken : "self" ∈ keywords.map (·.1)
  · unfold accept
    rw [if_pos (Named.isSome_lookup_iff.mpr taken)]
    exact ⟨fun never => (by cases never), fun both => absurd taken both.1⟩
  · rw [accept_eq d arguments keywords taken, bindArguments_eq_ok_iff, and_iff_right taken]

/-! ## Parameters -/

/-- What a parameter has in the scope of the members: the value that is supplied for it, or else the
value of its own default. -/
inductive Receives (evaluate : Scope → Expr → Eval Value) (inner : Scope)
    (param : String × Option Expr) : Option Value → Prop
  | supplied {value : Value} (found : inner.find? param.1 = some value) :
      Receives evaluate inner param (some value)
  | own {default : Expr} {outer : Scope} {value : Value} {s t : Store}
      (has : param.2 = some default) (evaluated : (evaluate outer default).run s = .ok value t)
      (found : inner.find? param.1 = some value) : Receives evaluate inner param none

variable {evaluate : Scope → Expr → Eval Value} {s t : Store}

theorem Receives.found {inner : Scope} {param : String × Option Expr} {value : Value}
    (receives : Receives evaluate inner param (some value)) :
    inner.find? param.1 = some value := by
  cases receives with
  | supplied found => exact found

theorem find?_bind (scope : Scope) (name : String) (v : Value) (other : String) :
    (scope.bind name v).find? other = if other = name then some v else scope.find? other := by
  unfold Scope.find? Scope.bind
  rw [List.lookup_cons]
  by_cases same : other = name
  · rw [if_pos same, beq_iff_eq.mpr same, Option.some_or]
  · rw [if_neg same, beq_eq_false_iff_ne.mpr same]

theorem find?_complete {inner next : Scope} {param : String × Option Expr}
    (completed : (complete evaluate bound inner param).run s = .ok next t) {name : String}
    (kept : name ≠ param.1 ∨ name ∈ bound.map (·.1)) : next.find? name = inner.find? name := by
  unfold complete at completed
  split at completed
  · next default _ free =>
    obtain ⟨value, u, -, last⟩ := run_bind_eq_ok_iff.mp completed
    cases last
    have other : name ≠ param.1 := kept.elim id fun mem same =>
      lookup_eq_none_iff_not_mem.mp free (same ▸ mem)
    rw [find?_bind, if_neg other]
  · cases completed
    rfl

theorem find?_foldlM_complete {rest : List (String × Option Expr)} {inner last : Scope}
    (completed : (rest.foldlM (complete evaluate bound) inner).run s = .ok last t) {name : String}
    (kept : name ∉ rest.map (·.1) ∨ name ∈ bound.map (·.1)) :
    last.find? name = inner.find? name := by
  induction rest generalizing inner s with
  | nil =>
    cases completed
    rfl
  | cons param rest ih =>
    rw [List.foldlM_cons] at completed
    obtain ⟨next, u, first, later⟩ := run_bind_eq_ok_iff.mp completed
    rw [List.map_cons, List.mem_cons, not_or] at kept
    rw [ih later (kept.imp_left And.right), find?_complete first (kept.imp_left And.left)]

/-- A parameter without a value comes to its own default. -/
theorem receives_foldlM_complete {rest : List (String × Option Expr)} {inner last : Scope}
    (completed : (rest.foldlM (complete evaluate bound) inner).run s = .ok last t)
    (nodup : (rest.map (·.1)).Nodup) {param : String × Option Expr} (mem : param ∈ rest)
    (free : param.1 ∉ bound.map (·.1)) (has : param.2 ≠ none) :
    Receives evaluate last param none := by
  induction rest generalizing inner s with
  | nil => cases mem
  | cons head rest ih =>
    rw [List.foldlM_cons] at completed
    obtain ⟨next, u, first, later⟩ := run_bind_eq_ok_iff.mp completed
    obtain ⟨new, nodup⟩ := List.nodup_cons.mp nodup
    rcases List.mem_cons.mp mem with rfl | mem
    · obtain ⟨default, own⟩ := Option.ne_none_iff_exists'.mp has
      have none := lookup_eq_none_iff_not_mem.mpr free
      simp only [complete, own, none] at first
      obtain ⟨value, _, evaluated, bound⟩ := run_bind_eq_ok_iff.mp first
      cases bound
      refine .own own evaluated ?_
      rw [find?_foldlM_complete later (.inl new), find?_bind, if_pos rfl]
    · exact ih later nodup mem

/-- In the scope of the members each parameter has what is bound to it, or else the value of its own
default. -/
theorem receives_enter {d : Definition} {scope inner : Scope}
    (entered : (enter evaluate scope d bound).run s = .ok inner t)
    (nodup : (d.params.map (·.1)).Nodup) (apart : (bound.map (·.1)).Nodup)
    (filled : ∀ param ∈ d.params, param.2 = none → param.1 ∈ bound.map (·.1))
    {param : String × Option Expr} (mem : param ∈ d.params) :
    Receives evaluate inner param (bound.lookup param.1) := by
  by_cases given : param.1 ∈ bound.map (·.1)
  · obtain ⟨value, found⟩ := Option.isSome_iff_exists.mp (Named.isSome_lookup_iff.mpr given)
    rw [found]
    refine .supplied ?_
    rw [find?_foldlM_complete entered (.inr given)]
    unfold Scope.find?
    rw [List.lookup_append, Named.lookup_reverse apart, found, Option.some_or, Option.some_or]
  · rw [lookup_eq_none_iff_not_mem.mpr given]
    exact receives_foldlM_complete entered nodup mem given fun none => given (filled param mem none)

/-! ## Layers of defaults -/

/-- What a call gives, by position and by name; the last keyword of one name decides. -/
def given (params : List (String × Option Expr)) (arguments : List Value)
    (keywords : List (String × Value)) : List (String × Value) :=
  (params.map (·.1)).zip arguments ++ Named.ofList keywords

/-- The default that the outermost layer with a name has for it. The last layer is the outermost. -/
def outermost (stack : List (List (String × Value))) (name : String) : Option Value :=
  stack.reverse.findSome? fun defaults => (Named.ofList defaults).lookup name

/-- The defaults that some layers leave of a definition's own. -/
def layered (own : List (String × Value)) (stack : List (List (String × Value))) :
    List (String × Value) := stack.foldl Named.setAll own

variable {own : List (String × Value)} {stack : List (List (String × Value))} {name : String}

theorem lookup_layered (own : List (String × Value)) (stack : List (List (String × Value)))
    (name : String) :
    (layered own stack).lookup name = (outermost stack name).or (own.lookup name) := by
  unfold layered outermost
  induction stack using List.reverseRecOn with
  | nil => rfl
  | append_singleton stack last ih =>
    rw [List.foldl_concat, Named.lookup_setAll, ih, List.reverse_concat, List.findSome?_cons,
      Named.lookup_ofList]
    cases last.reverse.lookup name with
    | none => rw [Option.none_or]
    | some value => rw [Option.some_or, Option.some_or]

theorem mem_names_layered : name ∈ (layered own stack).map (·.1) ↔
    name ∈ own.map (·.1) ∨ ∃ defaults ∈ stack, name ∈ defaults.map (·.1) := by
  unfold layered
  induction stack generalizing own with
  | nil => simp
  | cons defaults rest ih =>
    rw [List.foldl_cons, ih, Named.mem_names_setAll, or_assoc]
    simp

theorem nodup_layered (nodup : (own.map (·.1)).Nodup) (stack : List (List (String × Value))) :
    ((layered own stack).map (·.1)).Nodup := by
  unfold layered
  induction stack generalizing own with
  | nil => exact nodup
  | cons defaults rest ih => exact ih (Named.nodup_setAll nodup defaults)

theorem run_withDefaults {defaults : List (String × Value)}
    (free : "definition" ∉ defaults.map (·.1)) (s : Store) (id : Nat) :
    (withDefaults (.definition id) defaults).run s =
      .ok (.definition s.definitions.size) (s.newDefinition { s.definition id with
        defaults := Named.setAll (s.definition id).defaults defaults } false).2 := by
  have absent : (defaults.lookup "definition").isSome = false := by
    rw [lookup_eq_none_iff_not_mem.mpr free, Option.isSome_none]
  unfold withDefaults
  simp only [absent]
  rfl

theorem run_layers (free : ∀ defaults ∈ stack, "definition" ∉ defaults.map (·.1)) (s : Store)
    (id : Nat) : ∃ id' t, (stack.foldlM withDefaults (.definition id)).run s = .ok (.definition id') t ∧
      t.definition id' =
        { s.definition id with defaults := layered (s.definition id).defaults stack } := by
  induction stack generalizing s id with
  | nil => exact ⟨id, s, rfl, rfl⟩
  | cons defaults rest ih =>
    obtain ⟨here, later⟩ := List.forall_mem_cons.mp free
    have first := run_withDefaults here s id
    obtain ⟨id', t, run, eq⟩ := ih later _ s.definitions.size
    refine ⟨id', t, ?_, ?_⟩
    · rw [List.foldlM_cons]
      exact run_bind_eq_ok_iff.mpr ⟨_, _, first, run⟩
    · rw [eq]
      unfold Store.definition Store.newDefinition
      simp only [Table.get_push_size]
      rfl

/-- What is bound to a parameter under some layers of defaults: what the call gives, else the
default of the outermost layer, else the definition's own. -/
theorem lookup_layered_bound (params : List (String × Option Expr)) (arguments : List Value)
    (keywords own : List (String × Value)) (stack : List (List (String × Value))) (name : String) :
    ((params.map (·.1)).zip arguments ++ Named.setAll (layered own stack) keywords).lookup name =
      ((given params arguments keywords).lookup name).or
        ((outermost stack name).or (own.lookup name)) := by
  unfold given
  rw [List.lookup_append, List.lookup_append, Named.lookup_setAll, Named.lookup_ofList,
    lookup_layered, Option.or_assoc]

theorem mem_names_layered_keywords :
    name ∈ (Named.setAll (layered own stack) keywords).map (·.1) ↔
      name ∈ (Named.setAll own keywords).map (·.1) ∨
        ∃ defaults ∈ stack, name ∈ defaults.map (·.1) := by
  rw [Named.mem_names_setAll, Named.mem_names_setAll, mem_names_layered, or_right_comm]

namespace Fits

variable (fits : Fits params arguments (Named.setAll own keywords))
  (named : ∀ defaults ∈ stack, ∀ name ∈ defaults.map (·.1), name ∈ params.map (·.1))

include fits

theorem filled_layered : ∀ param ∈ params, param.2 = none → param.1 ∈ byPosition params arguments ∨
    param.1 ∈ (Named.setAll (layered own stack) keywords).map (·.1) :=
  fun param mem required => (fits.filled param mem required).imp_right fun before =>
    mem_names_layered_keywords.mpr (.inl before)

include named

theorem known_layered : ∀ name ∈ (Named.setAll (layered own stack) keywords).map (·.1),
    name ∈ params.map (·.1) := by
  intro name mem
  rcases mem_names_layered_keywords.mp mem with before | ⟨defaults, layer, mem⟩
  · exact fits.known name before
  · exact named defaults layer name mem

/-- A call that fits does so under some layers of defaults as well, unless these have a default for a
parameter that it gives by position. -/
theorem layered_iff : Fits params arguments (Named.setAll (layered own stack) keywords) ↔
    ∀ defaults ∈ stack, ∀ name ∈ defaults.map (·.1), name ∉ byPosition params arguments := by
  refine ⟨fun fits' defaults layer name mem => ?_, fun apart => ?_⟩
  · exact fits'.once name (mem_names_layered_keywords.mpr (.inr ⟨defaults, layer, mem⟩))
  · refine ⟨fits.count, fits.known_layered named, fun name mem => ?_, fits.filled_layered⟩
    rcases mem_names_layered_keywords.mp mem with before | ⟨defaults, layer, mem⟩
    · exact fits.once name before
    · exact apart defaults layer name mem

/-- It is such a default that it is refused for. -/
theorem failsWith_layered : FailsWith (fun fault => ∃ defaults ∈ stack, ∃ name ∈ defaults.map (·.1),
      name ∈ byPosition params arguments ∧
        fault = .wrongType ("multiple values for argument '" ++ name ++ "'"))
    (bindArguments params arguments (Named.setAll (layered own stack) keywords)) := by
  intro fault failed
  obtain ⟨name, mem, taken, rfl⟩ := failsWith_bindArguments fits.count (fits.known_layered named)
    fits.filled_layered fault failed
  rcases mem_names_layered_keywords.mp mem with before | ⟨defaults, layer, mem⟩
  · exact absurd taken (fits.once name before)
  · exact ⟨defaults, layer, name, mem, taken, rfl⟩

end Fits

/-- Under some layers of defaults a definition stays the same but for its defaults. Of the calls that
it accepted, it accepts exactly those that give no parameter by position for which a layer has a
default, and refuses the others because of one of these. In a call that is accepted, every parameter
has the value that the call gives it, else the default of the outermost layer that has one, else the
definition's own default. -/
theorem withDefaults_supplies {s : Store} {id : Nat} {stack : List (List (String × Value))}
    (distinct : (s.definition id).Distinct)
    (named : ∀ defaults ∈ stack, ∀ name ∈ defaults.map (·.1),
      name ∈ (s.definition id).params.map (·.1))
    (free : ∀ defaults ∈ stack, "definition" ∉ defaults.map (·.1)) :
    ∃ id' t, (stack.foldlM withDefaults (.definition id)).run s = .ok (.definition id') t ∧
      { t.definition id' with defaults := (s.definition id).defaults } = s.definition id ∧
      ∀ arguments keywords bound, accept (s.definition id) arguments keywords = .ok bound →
        ((∃ all, accept (t.definition id') arguments keywords = .ok all) ↔
          ∀ defaults ∈ stack, ∀ name ∈ defaults.map (·.1),
            name ∉ byPosition (s.definition id).params arguments) ∧
        FailsWith (fun fault => ∃ defaults ∈ stack, ∃ name ∈ defaults.map (·.1),
            name ∈ byPosition (s.definition id).params arguments ∧
            fault = .wrongType ("multiple values for argument '" ++ name ++ "'"))
          (accept (t.definition id') arguments keywords) ∧
        ∀ all, accept (t.definition id') arguments keywords = .ok all →
          ∀ evaluate scope u inner v,
            (enter evaluate scope (t.definition id') all).run u = .ok inner v →
            ∀ param ∈ (s.definition id).params, Receives evaluate inner param
              (((given (s.definition id).params arguments keywords).lookup param.1).or
                ((outermost stack param.1).or ((s.definition id).defaults.lookup param.1))) := by
  obtain ⟨id', t, run, eq⟩ := run_layers free s id
  generalize s.definition id = d at *
  refine ⟨id', t, run, by rw [eq], fun arguments keywords bound accepted => ?_⟩
  obtain ⟨plain, fits, -⟩ := accept_eq_ok_iff.mp accepted
  rw [eq]
  refine ⟨?_, ?_, fun all again evaluate scope u inner v entered param mem => ?_⟩
  · rw [← fits.layered_iff named]
    constructor
    · rintro ⟨all, again⟩
      exact (accept_eq_ok_iff.mp again).2.1
    · exact fun fits' => ⟨_, accept_eq_ok_iff.mpr ⟨plain, fits', rfl⟩⟩
  · rw [accept_eq _ arguments keywords plain]
    exact fits.failsWith_layered named
  · obtain ⟨-, fits', rfl⟩ := accept_eq_ok_iff.mp again
    have apart := Named.nodup_setAll (nodup_layered distinct.defaults stack) keywords
    rw [← lookup_layered_bound]
    refine receives_enter entered distinct.params (fits'.nodup distinct.params apart) ?_ mem
    exact fun param mem required => (names_bound _ _ _).mpr (fits'.filled param mem required)

/-- A definition with a required parameter and three that have defaults. -/
def webApp : Definition where
  name := "WebApp"
  params := [("name", none), ("runtime", some (.literal (.text "python3.12"))),
    ("memory", some (.literal (.int 128))), ("retries", some (.literal (.int 3)))]
  locals := []
  members := []
  scope := []
  defaults := []

/-- The store in which that definition is the only one. -/
def webAppStore : Store := (Store.initial.newDefinition webApp true).2

/-- The same definition with the defaults that two layers leave. -/
def smallWebApp : Definition :=
  { webApp with defaults := [("runtime", .text "python3.11"), ("memory", .int 256)] }

/-- The call by position goes before the defaults, its keyword too, the outer layer goes before the
inner one, and the last parameter has its own default. -/
theorem withDefaults_supplies_webApp :
    let stack : List (List (String × Value)) :=
      [[("runtime", .text "python3.9"), ("memory", .int 256)], [("runtime", .text "python3.11")]]
    let evaluate : Scope → Expr → Eval Value := fun scope e => e.evalTo scope 1
    ∃ id t all inner u,
      (stack.foldlM withDefaults (.definition 0)).run webAppStore = .ok (.definition id) t ∧
      accept (t.definition id) [.text "orders"] [("memory", .int 512)] = .ok all ∧
      (enter evaluate ⟨[], []⟩ (t.definition id) all).run t = .ok inner u ∧
      inner.find? "name" = some (.text "orders") ∧ inner.find? "runtime" = some (.text "python3.11") ∧
      inner.find? "memory" = some (.int 512) ∧ inner.find? "retries" = some (.int 3) := by
  intro stack evaluate
  have distinct : (webAppStore.definition 0).Distinct := ⟨by decide, by decide⟩
  have named : ∀ defaults ∈ stack, ∀ name ∈ defaults.map (·.1),
      name ∈ (webAppStore.definition 0).params.map (·.1) := by decide
  have free : ∀ defaults ∈ stack, "definition" ∉ defaults.map (·.1) := by decide
  obtain ⟨id, t, run, -, calls⟩ := withDefaults_supplies distinct named free
  obtain ⟨u, two, eq⟩ : ∃ u, (stack.foldlM withDefaults (.definition 0)).run webAppStore =
      .ok (.definition 2) u ∧ u.definition 2 = smallWebApp := ⟨_, rfl, rfl⟩
  cases two.symm.trans run
  rw [eq] at calls
  obtain ⟨accepts, -, supplies⟩ := calls [.text "orders"] [("memory", .int 512)] _ rfl
  obtain ⟨all, again⟩ := accepts.mpr (by decide)
  obtain ⟨inner, entered⟩ : ∃ inner, (enter evaluate ⟨[], []⟩ smallWebApp all).run t = .ok inner t := by
    cases again
    exact ⟨⟨[("retries", .int 3), ("memory", .int 512), ("runtime", .text "python3.11"),
      ("name", .text "orders")], []⟩, rfl⟩
  have each := supplies all again evaluate ⟨[], []⟩ t inner t entered
  refine ⟨2, t, all, inner, t, two, eq ▸ again, eq ▸ entered, ?_, ?_, ?_, ?_⟩
  · exact (each ("name", none) (.head _)).found
  · exact (each ("runtime", some (.literal (.text "python3.12"))) (.tail _ (.head _))).found
  · exact (each ("memory", some (.literal (.int 128))) (.tail _ (.tail _ (.head _)))).found
  · have own : Receives evaluate inner ("retries", some (.literal (.int 3))) none :=
      each _ (.tail _ (.tail _ (.tail _ (.head _))))
    cases own with
    | own has evaluated found =>
      cases has
      cases evaluated
      exact found

/-- A default meets an argument by position: the definition takes the call, and under the default it
refuses the same call. -/
theorem default_meets_position :
    let scope : Scope := ⟨[("web_app", .definition 0)], []⟩
    let call (called : Expr) : Eval Value := Expr.eval scope
      (.call called [.literal (.text "orders"), .literal (.text "python3.13")] [])
    let legacy : Expr := .withDefaults (.variable "web_app")
      [("runtime", .literal (.text "python3.9"))]
    (∃ t, (call (.variable "web_app")).run webAppStore = .ok (.composite 0) t) ∧
      ∃ t, (call legacy).run webAppStore =
        .error (.wrongType "multiple values for argument 'runtime'") t :=
  ⟨⟨_, rfl⟩, ⟨_, rfl⟩⟩

end Eval
end Infra
