import Infra.Backend.Session
import Infra.Proofs.Named
import Mathlib.Data.List.DropRight

/-!
# What the registry binds

Until the registry is cleared, the first operation that asks for a name decides its class. A
registration asks for its own name, and every look-up for that of the built-in class.

* `bindFree classes name c` : the classes with one more binding, unless its name is taken;
  `lookup_bindFree` : which class a name then has;
* `RegistryOperation.binding?` : the binding that an operation asks for;
* `RegistryState.Sound` : what holds of the registry between two operations;
  `RegistryState.classes_after` : every operation but clearing asks for one binding;
  `RegistryState.Sound.after` : so it keeps the registry sound;
* `asked ops` : the bindings that were asked for since the registry was last cleared;
  `RegistryState.classOf?_run` : the first one under a name stands;
* `RegistryState.registry_spec` : what each operation gives after a whole session.
-/

namespace Infra

/-! ## One binding -/

/-- The classes with one more binding, unless its name is taken. -/
def bindFree (classes : List (String × SerializerClass)) (name : String) (c : SerializerClass) :
    List (String × SerializerClass) :=
  match classes.lookup name with
  | some _ => classes
  | none => classes ++ [(name, c)]

variable {classes : List (String × SerializerClass)} {name : String}

theorem bindFree_of_taken (taken : (classes.lookup name).isSome = true) (c : SerializerClass) :
    bindFree classes name c = classes := by
  obtain ⟨held, found⟩ := Option.isSome_iff_exists.mp taken
  rw [bindFree, found]

theorem bindFree_of_some {held : SerializerClass} (found : classes.lookup name = some held)
    (c : SerializerClass) : bindFree classes name c = classes :=
  bindFree_of_taken (Option.isSome_of_eq_some found) c

theorem bindFree_of_free (free : classes.lookup name = none) (c : SerializerClass) :
    bindFree classes name c = classes ++ [(name, c)] := by
  rw [bindFree, free]

theorem lookup_concat (classes : List (String × SerializerClass)) (name : String)
    (c : SerializerClass) (other : String) :
    (classes ++ [(name, c)]).lookup other =
      (classes.lookup other).or (if other = name then some c else none) := by
  rw [List.lookup_append, List.lookup_cons, List.lookup_nil]
  by_cases same : other = name
  · rw [if_pos same, beq_iff_eq.mpr same]
  · rw [if_neg same, beq_eq_false_iff_ne.mpr same]

/-- A binding decides the class of a name that has none, and no other. -/
theorem lookup_bindFree (classes : List (String × SerializerClass)) (name : String)
    (c : SerializerClass) (other : String) :
    (bindFree classes name c).lookup other =
      (classes.lookup other).or (if other = name then some c else none) := by
  cases found : classes.lookup name with
  | none => rw [bindFree_of_free found, lookup_concat]
  | some held =>
    rw [bindFree_of_some found]
    by_cases same : other = name
    · rw [same, found, Option.some_or]
    · rw [if_neg same, Option.or_none]

theorem nodup_bindFree (nodup : (classes.map (·.1)).Nodup) (name : String) (c : SerializerClass) :
    ((bindFree classes name c).map (·.1)).Nodup := by
  cases found : classes.lookup name with
  | none =>
    have new : name ∉ classes.map (·.1) := lookup_eq_none_iff_not_mem.mp found
    rw [bindFree_of_free found]
    simpa using nodup.concat new
  | some held => rwa [bindFree_of_some found]

/-! ## One operation -/

/-- The binding that an operation asks for: a look-up asks for that of the built-in class. -/
def RegistryOperation.binding? : RegistryOperation → Option (String × SerializerClass)
  | register name c => some (name, c)
  | get _ | list => some (Template.backend, .template)
  | clear => none

namespace RegistryState

/-- No name is bound twice, and once the built-in class has been looked for its name is bound. -/
structure Sound (s : RegistryState) : Prop where
  nodup : (s.registry.classes.map (·.1)).Nodup
  builtIn : s.registry.loaded = true → (s.classOf? Template.backend).isSome = true

variable {s : RegistryState}

theorem sound_initial : initial.Sound := ⟨.nil, fun loaded => by cases loaded⟩

theorem ensureLoaded_eq (h : s.Sound) :
    s.registry.ensureLoaded.result =
      ⟨bindFree s.registry.classes Template.backend .template, true⟩ := by
  unfold Registry.ensureLoaded
  cases loaded : s.registry.loaded with
  | true =>
    rw [bindFree_of_taken (h.builtIn loaded)]
    exact congrArg (Registry.mk _) loaded
  | false => rfl

theorem registry_after_get (s : RegistryState) (name : String) :
    (s.after (.get name)).registry = s.registry.ensureLoaded.result := by
  unfold after perform Registry.find
  simp only [Logged.result_bind]
  cases s.registry.ensureLoaded.result.classes.lookup name with
  | none => rfl
  | some c => rfl

theorem result_register (r : Registry) (name : String) (c : SerializerClass) :
    (r.register name c).result = match r.classes.lookup name with
      | some held => if held = c then (r, .ok ()) else (r, .error (.backendTaken name))
      | none => (⟨r.classes ++ [(name, c)], r.loaded⟩, .ok ()) := by
  unfold Registry.register
  cases r.classes.lookup name with
  | none => rfl
  | some held =>
    by_cases same : held = c
    · simp [same]
    · simp [same]

/-- What asking for a serializer does: a name that is bound then has a new one, and any other is
refused with the names that are bound. -/
theorem get_cases (s : RegistryState) (name : String) :
    (∃ c, (s.after (.get name)).classOf? name = some c ∧
      s.answer (.get name) = .ok (.made ⟨s.made, c⟩) ∧ (s.after (.get name)).made = s.made + 1) ∨
    ((s.after (.get name)).classOf? name = none ∧
      s.answer (.get name) = .error (.failed
        (.unknownBackend name s.registry.ensureLoaded.result.boundNames)) ∧
      (s.after (.get name)).made = s.made) := by
  rw [classOf?, registry_after_get]
  unfold answer after perform Registry.find
  simp only [Logged.result_bind]
  cases s.registry.ensureLoaded.result.classes.lookup name with
  | none => exact .inr ⟨rfl, rfl, rfl⟩
  | some c => exact .inl ⟨c, rfl, rfl, rfl⟩

/-- What a registration does: a name that is bound to another class is refused, and any other is
bound to the class. -/
theorem register_cases (s : RegistryState) (name : String) (c : SerializerClass) :
    (∃ held, s.classOf? name = some held ∧ held ≠ c ∧
      s.answer (.register name c) = .error (.backendTaken name) ∧
      s.after (.register name c) = s) ∨
    ((s.classOf? name = none ∨ s.classOf? name = some c) ∧
      s.answer (.register name c) = .ok (.registered c) ∧
      s.after (.register name c) =
        ⟨⟨bindFree s.registry.classes name c, s.registry.loaded⟩, s.made⟩) := by
  have answer : s.answer (.register name c) =
      (s.registry.register name c).result.2.map fun _ => .registered c := rfl
  have after : s.after (.register name c) =
      ⟨(s.registry.register name c).result.1, s.made⟩ := rfl
  rw [answer, after, result_register]
  cases found : s.registry.classes.lookup name with
  | none =>
    rw [bindFree_of_free found]
    exact .inr ⟨.inl found, rfl, rfl⟩
  | some held =>
    by_cases same : held = c
    · subst same
      rw [bindFree_of_some found]
      exact .inr ⟨.inr found, by simp; rfl, by simp⟩
    · exact .inl ⟨held, found, same, by simp [same]; rfl, by simp [same]⟩

/-- An operation asks for its binding; to clear the registry removes all. -/
theorem classes_after (h : s.Sound) (op : RegistryOperation) :
    (s.after op).registry.classes = match op.binding? with
      | some (name, c) => bindFree s.registry.classes name c
      | none => [] := by
  cases op with
  | register name c =>
    show _ = bindFree s.registry.classes name c
    rcases s.register_cases name c with ⟨held, found, -, -, kept⟩ | ⟨-, -, bound⟩
    · rw [kept, bindFree_of_some found]
    · rw [bound]
  | get name => rw [registry_after_get, ensureLoaded_eq h, RegistryOperation.binding?]
  | list => exact congrArg Registry.classes (ensureLoaded_eq h)
  | clear => rfl

theorem Sound.after (h : s.Sound) (op : RegistryOperation) : (s.after op).Sound := by
  have classes := classes_after h op
  cases op with
  | register name c =>
    refine ⟨classes ▸ nodup_bindFree h.nodup name c, fun loaded => ?_⟩
    have before : s.registry.loaded = true := by
      rcases s.register_cases name c with ⟨-, -, -, -, kept⟩ | ⟨-, -, bound⟩
      · rwa [kept] at loaded
      · rwa [bound] at loaded
    rw [classOf?, classes, RegistryOperation.binding?, lookup_bindFree, Option.isSome_or,
      ← classOf?, h.builtIn before, Bool.true_or]
  | get | list =>
    refine ⟨classes ▸ nodup_bindFree h.nodup _ _, fun _ => ?_⟩
    rw [classOf?, classes, RegistryOperation.binding?, lookup_bindFree, if_pos rfl,
      Option.isSome_or, Option.isSome_some, Bool.or_true]
  | clear => exact ⟨.nil, fun loaded => by cases loaded⟩

/-! ## Sessions -/

/-- The bindings that operations ask for after the registry was last cleared, in order. -/
def asked (ops : List RegistryOperation) : List (String × SerializerClass) :=
  (ops.rtakeWhile (· != .clear)).filterMap RegistryOperation.binding?

theorem asked_concat (ops : List RegistryOperation) (op : RegistryOperation) :
    asked (ops ++ [op]) = match op.binding? with
      | some binding => asked ops ++ [binding]
      | none => [] := by
  unfold asked
  rw [List.rtakeWhile_concat]
  cases op with
  | clear => rfl
  | register | get | list =>
    rw [if_pos (by simp), List.filterMap_append]
    rfl

theorem sound_run (h : s.Sound) (ops : List RegistryOperation) : (s.run ops).Sound := by
  induction ops generalizing s with
  | nil => exact h
  | cons op rest ih => exact ih (h.after op)

theorem run_concat (s : RegistryState) (ops : List RegistryOperation) (op : RegistryOperation) :
    s.run (ops ++ [op]) = (s.run ops).after op := s.run_append ops [op]

/-- The first binding that was asked for under a name stands. -/
theorem classOf?_run (ops : List RegistryOperation) (name : String) :
    (initial.run ops).classOf? name = (asked ops).lookup name := by
  induction ops using List.reverseRecOn with
  | nil => rfl
  | append_singleton ops op ih =>
    rw [run_concat, classOf?, classes_after (sound_run sound_initial ops), asked_concat]
    cases op.binding? with
    | none => rfl
    | some binding => rw [lookup_bindFree, lookup_concat, ← ih, classOf?]

/-- What is bound stays bound as long as the registry is not cleared. -/
theorem classOf?_run_of_some (h : s.Sound) {more : List RegistryOperation} (kept : .clear ∉ more)
    {name : String} {c : SerializerClass} (bound : s.classOf? name = some c) :
    (s.run more).classOf? name = some c := by
  induction more generalizing s with
  | nil => exact bound
  | cons op rest ih =>
    refine ih (h.after op) (fun later => kept (List.mem_cons_of_mem op later)) ?_
    have classes := classes_after h op
    cases asks : op.binding? with
    | none =>
      cases op with
      | clear => exact absurd List.mem_cons_self kept
      | register | get | list => cases asks
    | some binding =>
      rw [asks] at classes
      rw [classOf?, classes, lookup_bindFree, ← classOf?, bound, Option.some_or]

/-! ## Names -/

theorem mem_boundNames {r : Registry} {name : String} :
    name ∈ r.boundNames ↔ (r.classes.lookup name).isSome = true := by
  rw [Registry.boundNames, Text.mem_sorted, Named.isSome_lookup_iff]

theorem pairwise_boundNames {r : Registry} (nodup : (r.classes.map (·.1)).Nodup) :
    r.boundNames.Pairwise (· < ·) := by
  have once : r.boundNames.Nodup := (List.mergeSort_perm _ _).nodup_iff.mpr nodup
  exact ((Text.pairwise_sorted _).and once).imp fun ⟨le, ne⟩ => Std.lt_of_le_of_ne le ne

/-! ## Serializers -/

/-- A new serializer has the next number, and no other operation makes one. -/
theorem made_of_answer {op : RegistryOperation} {serializer : Serializer}
    (made : s.answer op = .ok (.made serializer)) :
    serializer.number = s.made ∧ (s.after op).made = s.made + 1 := by
  cases op with
  | register name c =>
    rcases s.register_cases name c with ⟨-, -, -, refused, -⟩ | ⟨-, bound, -⟩
    · cases made.symm.trans refused
    · cases made.symm.trans bound
  | get name =>
    rcases s.get_cases name with ⟨c, -, new, next⟩ | ⟨-, refused, -⟩
    · cases made.symm.trans new
      exact ⟨rfl, next⟩
    · cases made.symm.trans refused
  | list => cases made
  | clear => cases made

theorem made_le_after (s : RegistryState) (op : RegistryOperation) :
    s.made ≤ (s.after op).made := by
  cases op with
  | register | list | clear => exact Nat.le_refl s.made
  | get name =>
    rcases s.get_cases name with ⟨-, -, -, next⟩ | ⟨-, -, same⟩
    · exact next ▸ Nat.le_succ s.made
    · exact same ▸ Nat.le_refl s.made

theorem made_le_run (s : RegistryState) (ops : List RegistryOperation) :
    s.made ≤ (s.run ops).made := by
  induction ops generalizing s with
  | nil => exact Nat.le_refl s.made
  | cons op rest ih => exact (s.made_le_after op).trans (ih (s.after op))

/-- The serializers that a session has made have smaller numbers than the next one. -/
theorem number_lt_of_mem_answers {ops : List RegistryOperation} {serializer : Serializer}
    (mem : .ok (.made serializer) ∈ s.answers ops) : serializer.number < (s.run ops).made := by
  induction ops generalizing s with
  | nil => cases mem
  | cons op rest ih =>
    rcases List.mem_cons.mp mem with here | later
    · obtain ⟨number, next⟩ := made_of_answer here.symm
      have after := (s.after op).made_le_run rest
      rw [next] at after
      exact number ▸ after
    · exact ih later

/-! ## What operations give -/

theorem lookup_ensureLoaded (h : s.Sound) (name : String) :
    s.registry.ensureLoaded.result.classes.lookup name =
      (s.classOf? name).or (if name = Template.backend then some .template else none) := by
  rw [ensureLoaded_eq h, lookup_bindFree, classOf?]

theorem mem_listed_iff (h : s.Sound) (name : String) :
    name ∈ s.registry.ensureLoaded.result.boundNames ↔
      name = Template.backend ∨ s.classOf? name ≠ none := by
  rw [mem_boundNames, lookup_ensureLoaded h, Option.isSome_or, Bool.or_eq_true, or_comm,
    Option.isSome_iff_ne_none (o := s.classOf? name)]
  by_cases builtIn : name = Template.backend
  · simp [builtIn]
  · simp [builtIn]

theorem pairwise_listed (h : s.Sound) :
    s.registry.ensureLoaded.result.boundNames.Pairwise (· < ·) := by
  rw [ensureLoaded_eq h]
  exact pairwise_boundNames (nodup_bindFree h.nodup _ _)

theorem register_spec (s : RegistryState) (name : String) (c : SerializerClass) :
    (∃ held, s.classOf? name = some held ∧ held ≠ c ∧
      s.answer (.register name c) = .error (.backendTaken name) ∧
      s.after (.register name c) = s) ∨
    (s.answer (.register name c) = .ok (.registered c) ∧
      (s.after (.register name c)).classOf? name = some c) := by
  rcases s.register_cases name c with refused | ⟨free, answer, bound⟩
  · exact .inl refused
  · refine .inr ⟨answer, ?_⟩
    rw [bound, classOf?, lookup_bindFree, if_pos rfl, ← classOf?]
    rcases free with none | same
    · rw [none, Option.none_or]
    · rw [same, Option.some_or]

theorem not_mem_listed {name : String} (free : (s.after (.get name)).classOf? name = none) :
    name ∉ s.registry.ensureLoaded.result.boundNames := by
  rw [classOf?, registry_after_get] at free
  rw [mem_boundNames, free]
  exact Bool.false_ne_true

/-! ## The registry after a session -/

/-- What the registry does after any session. The class bound to a name is the first one that was
asked for under it since the registry was cleared, where look-ups ask for the built-in one under its
name; it stays until the registry is cleared again. A registration under a name of another class is
refused and leaves everything as it is; any other binds its class. The listed names are in strict
order, the name of the built-in backend and those bound. Asking for a serializer gives a new one of
the class bound to the name, or is refused with the names that would be listed. Either look-up binds
the built-in class at most, and only if its name is free. (Where the built-in class has registered
itself before, a session begins with that registration.) -/
theorem registry_spec (ops : List RegistryOperation) :
    let s := initial.run ops
    (∀ name, s.classOf? name = (asked ops).lookup name) ∧
    (∀ more, .clear ∉ more → ∀ name c,
      s.classOf? name = some c → (s.run more).classOf? name = some c) ∧
    (∀ name c,
      (∃ held, s.classOf? name = some held ∧ held ≠ c ∧
        s.answer (.register name c) = .error (.backendTaken name) ∧
        s.after (.register name c) = s) ∨
      (s.answer (.register name c) = .ok (.registered c) ∧
        (s.after (.register name c)).classOf? name = some c)) ∧
    (∃ names, s.answer .list = .ok (.listed names) ∧ names.Pairwise (· < ·) ∧
      ∀ name, name ∈ names ↔ name = Template.backend ∨ s.classOf? name ≠ none) ∧
    (∀ name,
      (∃ serializer, s.answer (.get name) = .ok (.made serializer) ∧
        (s.after (.get name)).classOf? name = some serializer.kind ∧
        ∀ old, .ok (.made old) ∈ initial.answers ops → old.number ≠ serializer.number) ∨
      (∃ names, s.answer .list = .ok (.listed names) ∧ name ∉ names ∧
        s.answer (.get name) = .error (.failed (.unknownBackend name names)))) ∧
    (∀ lookup, (lookup = .list ∨ ∃ name, lookup = .get name) → ∀ name,
      (s.after lookup).classOf? name =
        (s.classOf? name).or (if name = Template.backend then some .template else none)) := by
  intro s
  have sound : s.Sound := sound_run sound_initial ops
  refine ⟨classOf?_run ops, fun more kept name c => classOf?_run_of_some sound kept,
    s.register_spec, ⟨_, rfl, pairwise_listed sound, mem_listed_iff sound⟩, ?_, ?_⟩
  · intro name
    rcases s.get_cases name with ⟨c, bound, answer, -⟩ | ⟨free, answer, -⟩
    · exact .inl ⟨_, answer, bound, fun old before => (number_lt_of_mem_answers before).ne⟩
    · exact .inr ⟨_, rfl, not_mem_listed free, answer⟩
  · intro lookup either name
    rcases either with rfl | ⟨asked, rfl⟩
    · exact lookup_ensureLoaded sound name
    · rw [classOf?, registry_after_get, lookup_ensureLoaded sound]

/-- A class that takes the name of the built-in backend keeps it. -/
example : (initial.run [.list, .clear, .register "template" (.custom "Plain" "template"), .list,
    .register "template" .template]).classOf? "template" = some (.custom "Plain" "template") := by
  rfl

end RegistryState
end Infra
