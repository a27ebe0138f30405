import Infra.Proofs.Named

/-!
# Claims of names

Objects claim names one after the other. An object that claims a second name keeps its first one.

* `firstName?` : the first name that an object claims; `firsts` : the first claims of all objects;
* `Clash` : an object claims the first name of another;
* `Namespace.claim`, `Namespace.claimAll` : a namespace after claims, unless one is refused;
* `claimAll_spec` : claims that clash are refused, and others leave the first claims;
* `claimAll_ofList` : claims that agree on each name can be thinned out.
-/

namespace Infra

/-- A name with the object that claims it. -/
abbrev Claim := String × Value

/-- The first name that an object claims. -/
def firstName? (claims : List Claim) (v : Value) : Option String :=
  (claims.find? fun c => c.2 == v).map (·.1)

/-- An object claims a name that is the first one of another object. -/
def Clash (claims : List Claim) : Prop :=
  ∃ before name v after w, claims = before ++ (name, v) :: after ∧
    firstName? before w = some name ∧ w ≠ v

/-- Adds a claim of an object that is not there yet. -/
def addFirst (n : Namespace) (c : Claim) : Namespace := if c.2 ∈ n.map (·.2) then n else n ++ [c]

/-- The first claims of all objects, in order. -/
def firsts (claims : List Claim) : Namespace := claims.foldl addFirst []

namespace Namespace

/-- A namespace after one more claim, unless the name stands for another object there. -/
def claim (n : Namespace) (c : Claim) : Option Namespace :=
  match n.lookup c.1 with
  | some held => if held = c.2 then some n else none
  | none => some (addFirst n c)

/-- A namespace after some claims, unless one of them is refused. -/
def claimAll (n : Namespace) (claims : List Claim) : Option Namespace := claims.foldlM claim n

end Namespace

open Namespace (claim claimAll)

variable {claims : List Claim} {c : Claim} {n m : Namespace} {name : String} {v w : Value}

/-! ## First names -/

theorem addFirst_of_mem (mem : c.2 ∈ n.map (·.2)) : addFirst n c = n := if_pos mem

theorem addFirst_of_not_mem (new : c.2 ∉ n.map (·.2)) : addFirst n c = n ++ [c] := if_neg new

theorem firsts_concat (claims : List Claim) (c : Claim) :
    firsts (claims ++ [c]) = addFirst (firsts claims) c := List.foldl_concat _ _ _ _

theorem firstName?_append (claims more : List Claim) (v : Value) :
    firstName? (claims ++ more) v = (firstName? claims v).or (firstName? more v) := by
  unfold firstName?
  rw [List.find?_append, Option.map_or]

theorem firstName?_concat (claims : List Claim) (c : Claim) (v : Value) :
    firstName? (claims ++ [c]) v =
      (firstName? claims v).or (if c.2 = v then some c.1 else none) := by
  rw [firstName?_append]
  congr 1
  unfold firstName?
  rw [List.find?_singleton]
  by_cases eq : c.2 = v
  · simp [eq]
  · simp [eq]

theorem mem_of_firstName? (first : firstName? claims v = some name) : (name, v) ∈ claims := by
  obtain ⟨d, found, rfl⟩ := Option.map_eq_some_iff.mp first
  have held : d.2 = v := by simpa using List.find?_some found
  rw [← held]
  exact List.mem_of_find?_eq_some found

theorem firstName?_eq_none_iff : firstName? claims v = none ↔ v ∉ claims.map (·.2) := by
  unfold firstName?
  rw [Option.map_eq_none_iff, List.find?_eq_none]
  constructor
  · intro none mem
    obtain ⟨d, inside, eq⟩ := List.mem_map.mp mem
    exact none d inside (beq_iff_eq.mpr eq)
  · intro absent d inside eq
    exact absent (List.mem_map.mpr ⟨d, inside, beq_iff_eq.mp eq⟩)

/-- Claims of objects that are known give no object its first name. -/
theorem firstName?_append_of_known {more : List Claim}
    (known : ∀ c ∈ more, c.2 ∈ claims.map (·.2)) :
    firstName? (claims ++ more) v = firstName? claims v := by
  rw [firstName?_append]
  cases first : firstName? claims v with
  | some name => rfl
  | none =>
    have absent := firstName?_eq_none_iff.mp first
    rw [Option.none_or, firstName?_eq_none_iff]
    intro mem
    obtain ⟨c, inside, rfl⟩ := List.mem_map.mp mem
    exact absent (known c inside)

/-- The first claims give each object its first name. -/
theorem mem_firsts : (name, v) ∈ firsts claims ↔ firstName? claims v = some name := by
  induction claims using List.reverseRecOn generalizing name v with
  | nil => simp [firsts, firstName?]
  | append_singleton claims c ih =>
    rw [firsts_concat, firstName?_concat]
    by_cases known : c.2 ∈ (firsts claims).map (·.2)
    · obtain ⟨⟨other, u⟩, inside, eq⟩ := List.mem_map.mp known
      have named : firstName? claims c.2 = some other := ih.mp (eq ▸ inside)
      rw [addFirst_of_mem known, ih]
      by_cases same : c.2 = v
      · rw [← same, named, Option.some_or]
      · rw [if_neg same, Option.or_none]
    · have unnamed : firstName? claims c.2 = none := by
        cases first : firstName? claims c.2 with
        | none => rfl
        | some other => exact absurd (List.mem_map_of_mem (f := (·.2)) (ih.mpr first)) known
      rw [addFirst_of_not_mem known, List.mem_append, List.mem_singleton, ih]
      by_cases same : c.2 = v
      · rw [← same, unnamed, Option.none_or, if_pos rfl, Option.some.injEq, Prod.ext_iff]
        simp [eq_comm]
      · rw [if_neg same, Option.or_none, Prod.ext_iff]
        simp [Ne.symm same]

/-! ## Clashes -/

theorem Clash.append (clash : Clash claims) (more : List Claim) : Clash (claims ++ more) := by
  obtain ⟨before, name, v, after, w, rfl, first, ne⟩ := clash
  exact ⟨before, name, v, after ++ more, w, by simp, first, ne⟩

theorem clash_concat : Clash (claims ++ [c]) ↔
    Clash claims ∨ ∃ w, firstName? claims w = some c.1 ∧ w ≠ c.2 := by
  constructor
  · rintro ⟨before, name, v, after, w, split, first, ne⟩
    rcases List.eq_nil_or_concat after with rfl | ⟨init, last, rfl⟩
    · obtain ⟨rfl, last⟩ := List.append_inj' split rfl
      obtain rfl := List.singleton_inj.mp last
      exact .inr ⟨w, first, ne⟩
    · rw [List.concat_eq_append, ← List.cons_append, ← List.append_assoc] at split
      exact .inl ⟨before, name, v, init, w, (List.append_inj' split rfl).1, first, ne⟩
  · rintro (clash | ⟨w, first, ne⟩)
    · exact clash.append [c]
    · exact ⟨claims, c.1, c.2, [], w, rfl, first, ne⟩

/-! ## Claims on a namespace -/

/-- A claim that is not refused adds an object under a new name, or finds the name or the object
there. -/
theorem claim_eq_some_iff : claim n c = some m ↔
    n.lookup c.1 = some c.2 ∧ m = n ∨ n.lookup c.1 = none ∧ m = addFirst n c := by
  unfold claim
  cases n.lookup c.1 with
  | some held =>
    by_cases eq : held = c.2
    · simp [eq, eq_comm]
    · simp [eq]
  | none => simp [eq_comm]

theorem claimAll_append (n : Namespace) (claims more : List Claim) :
    claimAll n (claims ++ more) = (claimAll n claims).bind (claimAll · more) := List.foldlM_append

theorem claimAll_singleton (n : Namespace) (c : Claim) : claimAll n [c] = claim n c := by
  unfold claimAll
  rw [List.foldlM_cons]
  cases claim n c <;> rfl

theorem claimAll_cons (n : Namespace) (c : Claim) (claims : List Claim) :
    claimAll n (c :: claims) = (claim n c).bind (claimAll · claims) := List.foldlM_cons

/-- Claims that clash are refused. Others leave the first claims, under different names. -/
theorem claimAll_spec (claims : List Claim) :
    Clash claims ∧ claimAll [] claims = none ∨
      ¬ Clash claims ∧ claimAll [] claims = some (firsts claims) ∧
        ((firsts claims).map (·.1)).Nodup := by
  induction claims using List.reverseRecOn with
  | nil =>
    refine .inr ⟨?_, rfl, .nil⟩
    rintro ⟨before, name, v, after, w, split, -⟩
    exact absurd split (by simp)
  | append_singleton claims c ih =>
    rw [claimAll_append]
    rcases ih with ⟨clash, refused⟩ | ⟨quiet, done, names⟩
    · exact .inl ⟨clash.append [c], by rw [refused, Option.bind_none]⟩
    · rw [done, Option.bind_some, claimAll_singleton]
      -- Who holds the name is the one who claimed it first.
      have holder : ∀ w, (firsts claims).lookup c.1 = some w ↔ firstName? claims w = some c.1 :=
        fun w => (lookup_eq_some_iff_mem names).trans mem_firsts
      rw [clash_concat, firsts_concat]
      cases held : (firsts claims).lookup c.1 with
      | none =>
        refine .inr ⟨?_, claim_eq_some_iff.mpr (.inr ⟨held, rfl⟩), ?_⟩
        · rintro (clash | ⟨w, first, -⟩)
          · exact quiet clash
          · cases held.symm.trans ((holder w).mpr first)
        · unfold addFirst
          split
          · exact names
          · have new : c.1 ∉ (firsts claims).map (·.1) := by
              intro mem
              obtain ⟨⟨_, u⟩, inside, rfl⟩ := List.mem_map.mp mem
              cases held.symm.trans ((lookup_eq_some_iff_mem names).mpr inside)
            simpa using names.concat new
      | some u =>
        by_cases same : u = c.2
        · subst same
          have known : c.2 ∈ (firsts claims).map (·.2) :=
            List.mem_map_of_mem (f := (·.2)) ((lookup_eq_some_iff_mem names).mp held)
          rw [addFirst_of_mem known]
          refine .inr ⟨?_, claim_eq_some_iff.mpr (.inl ⟨held, rfl⟩), names⟩
          rintro (clash | ⟨w, first, ne⟩)
          · exact quiet clash
          · exact ne (Option.some.inj (((holder w).mpr first).symm.trans held))
        · refine .inl ⟨.inr ⟨u, (holder u).mp held, same⟩, ?_⟩
          unfold claim
          rw [held]
          exact if_neg same

theorem claimAll_eq_none_iff : claimAll [] claims = none ↔ Clash claims := by
  rcases claimAll_spec claims with ⟨clash, refused⟩ | ⟨quiet, done, -⟩
  · simp [clash, refused]
  · simp [quiet, done]

theorem eq_firsts_of_claimAll (done : claimAll [] claims = some n) : n = firsts claims := by
  rcases claimAll_spec claims with ⟨-, refused⟩ | ⟨-, left, -⟩
  · cases refused.symm.trans done
  · exact Option.some.inj (done.symm.trans left)

/-! ## Claims made again -/

/-- What has been claimed can be claimed again, without effect. -/
theorem claim_again (done : claim n (name, v) = some m) : claim m (name, v) = some m := by
  rcases claim_eq_some_iff.mp done with ⟨_, rfl⟩ | ⟨free, rfl⟩
  · exact done
  · by_cases known : v ∈ n.map (·.2)
    · rwa [addFirst_of_mem known] at done ⊢
    · rw [addFirst_of_not_mem known]
      refine claim_eq_some_iff.mpr (.inl ⟨?_, rfl⟩)
      rw [List.lookup_append, free, Option.none_or, List.lookup_cons, beq_self_eq_true]

/-- A claim of another name does not change that. -/
theorem claim_again_of_ne (again : claim n (name, v) = some n) (ne : c.1 ≠ name)
    (done : claim n c = some m) : claim m (name, v) = some m := by
  rcases claim_eq_some_iff.mp done with ⟨_, rfl⟩ | ⟨_, rfl⟩
  · exact again
  · unfold addFirst
    split
    · exact again
    · next new =>
      have other : (n ++ [c]).lookup name = n.lookup name := by
        rw [List.lookup_append, List.lookup_cons, beq_eq_false_iff_ne.mpr ne.symm, List.lookup_nil,
          Option.or_none]
      rcases claim_eq_some_iff.mp again with ⟨held, -⟩ | ⟨free, left⟩
      · exact claim_eq_some_iff.mpr (.inl ⟨other.trans held, rfl⟩)
      · refine claim_eq_some_iff.mpr (.inr ⟨other.trans free, ?_⟩)
        have known : v ∈ n.map (·.2) := by
          by_contra absent
          rw [addFirst_of_not_mem absent] at left
          exact absurd left (by simp)
        exact (addFirst_of_mem (by simpa using .inl (by simpa using known))).symm

theorem claimAll_again {claims : List Claim} (again : claim n (name, v) = some n)
    (agree : ∀ w, (name, w) ∈ claims → w = v) (done : claimAll n claims = some m) :
    claim m (name, v) = some m := by
  induction claims generalizing n with
  | nil =>
    cases done
    exact again
  | cons c rest ih =>
    rw [claimAll_cons] at done
    obtain ⟨next, first, later⟩ := Option.bind_eq_some_iff.mp done
    refine ih ?_ (fun w mem => agree w (List.mem_cons_of_mem c mem)) later
    by_cases eq : c.1 = name
    · have same : c = (name, v) := Prod.ext eq (agree c.2 (by rw [← eq]; exact List.mem_cons_self))
      rw [same] at first
      exact claim_again first
    · exact claim_again_of_ne again eq first

/-- A claim that was made among claims that agree with it can be made again after them. -/
theorem claim_of_mem {claims : List Claim} (mem : (name, v) ∈ claims)
    (agree : ∀ w, (name, w) ∈ claims → w = v) (done : claimAll n claims = some m) :
    claim m (name, v) = some m := by
  obtain ⟨before, after, rfl⟩ := List.append_of_mem mem
  rw [claimAll_append] at done
  obtain ⟨k, -, later⟩ := Option.bind_eq_some_iff.mp done
  rw [claimAll_cons] at later
  obtain ⟨l, here, rest⟩ := Option.bind_eq_some_iff.mp later
  exact claimAll_again (claim_again here) (fun w inside => agree w (by simp [inside])) rest

/-- Claims that agree on each name can be thinned out to one for each name. -/
theorem claimAll_ofList {α : Type} (f : α → Value) {entries : List (String × α)}
    (agree : ∀ name a b, (name, a) ∈ entries → (name, b) ∈ entries → a = b) (n : Namespace) :
    claimAll n ((Named.ofList entries).map fun entry => (entry.1, f entry.2)) =
      claimAll n (entries.map fun entry => (entry.1, f entry.2)) := by
  induction entries using List.reverseRecOn with
  | nil => rfl
  | append_singleton entries last ih =>
    obtain ⟨name, a⟩ := last
    have earlier := ih fun key b d first second => agree key b d (by simp [first]) (by simp [second])
    have step : Named.ofList (entries ++ [(name, a)]) =
        Named.insert (Named.ofList entries) name a := List.foldl_concat _ _ _ _
    rw [step, List.map_append, List.map_singleton, claimAll_append]
    by_cases known : name ∈ (Named.ofList entries).map (·.1)
    · obtain ⟨⟨key, b⟩, held, eq⟩ := List.mem_map.mp known
      obtain rfl : key = name := eq
      have inside := Named.mem_of_mem_ofList held
      have here : (key, a) ∈ entries ++ [(key, a)] := by simp
      obtain rfl : b = a := agree key b a (List.mem_append_left _ inside) here
      rw [Named.insert_of_held (Named.nodup_ofList entries) held, earlier]
      cases done : claimAll n (entries.map fun entry => (entry.1, f entry.2)) with
      | none => rfl
      | some m =>
        rw [Option.bind_some, claimAll_singleton]
        refine (claim_of_mem ?_ (fun w mem => ?_) done).symm
        · exact List.mem_map_of_mem (f := fun entry => (entry.1, f entry.2)) inside
        · obtain ⟨⟨other, d⟩, second, eq⟩ := List.mem_map.mp mem
          cases eq
          rw [agree key d b (List.mem_append_left _ second) here]
    · rw [Named.insert_of_not_mem known, List.map_append, List.map_singleton, claimAll_append,
        earlier]

end Infra
