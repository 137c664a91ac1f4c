import RecordGrammar.Proofs.Registry.LifeCycle

namespace RecordGrammar

/-! What references mean in the course of a session.

A direct reference means its shape. A name means the shape that is found under it, as seen from the
grammar of the shape that the reference belongs to, and a slot that was resolved once keeps its
answer. So whatever is registered later on, what a slot recalls was found under its name at some
moment. -/

/-- Whether a reference means a shape, given what names mean. -/
def ShapeRef.Means (named : String → ShapeId → Prop) : ShapeRef → ShapeId → Prop
  | .shape id _, other => other = id
  | .named name, other => named name other

/-- The slots of a tree recall nothing but what the references in them mean. -/
def Shape.Recalls (named : String → ShapeId → Prop) (shape : Shape) : Prop :=
  shape.phase = .ready → ∀ root, shape.root = some root → ∀ entry ∈ shape.resolved,
    ∃ target, root.targets[entry.1]? = some target ∧ target.Means named entry.2

namespace Shape

variable {shape next : Shape} {id : ShapeId} {kinds : KindTable}
  {named other : String → ShapeId → Prop}

theorem recalls_of_pending (pending : shape.phase = .pending) : shape.Recalls named := by
  intro ready
  cases pending.symm.trans ready

theorem Recalls.mono (recalls : shape.Recalls named)
    (more : ∀ name id, named name id → other name id) :
    shape.Recalls other := by
  intro ready root stored entry held
  obtain ⟨target, there, means⟩ := recalls ready root stored entry held
  refine ⟨target, there, ?_⟩
  cases target with
  | named name => exact more name entry.2 means
  | shape direct name => exact means

theorem Recalls.compile (recalls : shape.Recalls named) (id : ShapeId) (kinds : KindTable) :
    (shape.compile id kinds).shape.Recalls named := by
  cases phase : shape.phase with
  | ready => rwa [compile_of_ready phase]
  | compiling => simpa only [Shape.compile, phase] using recalls
  | pending =>
      cases made : shape.ruleTree id kinds with
      | error error =>
          obtain ⟨_, tokens, same⟩ := compile_of_error phase made
          rw [same]
          exact recalls_of_pending phase
      | ok root =>
          obtain ⟨_, tokens, same⟩ := compile_of_ok phase made
          rw [same]
          intro _ tree _ entry held
          simp at held

theorem Recalls.remember (recalls : shape.Recalls named) {slot : Nat} {found : ShapeId}
    (means : shape.phase = .ready → ∀ root, shape.root = some root →
      ∃ target, root.targets[slot]? = some target ∧ target.Means named found) :
    (shape.remember slot found).Recalls named := by
  unfold Shape.remember
  split
  · exact recalls
  · intro ready root stored entry held
    rcases List.mem_append.mp held with old | last
    · exact recalls ready root stored entry old
    · rw [List.mem_singleton.mp last]
      exact means ready root stored

theorem Recalls.close (recalls : shape.Recalls named) : shape.close.Recalls named := by
  unfold Shape.close
  split <;> exact recalls

/-- Once a tree is built, it is the one that the shape was going to have. -/
theorem Becomes.root_eq (becomes : Becomes id kinds shape next) {root : Tree}
    (made : shape.rootWith id kinds = .ok root) (ready : next.phase = .ready) :
    next.root = some root := by
  unfold Shape.rootWith at made
  rcases becomes.tree with ⟨phase, same⟩ | ⟨pending, _, tree, built, stored⟩
  · simp only [compile_of_ready (phase.symm.trans ready)] at made
    rw [same]
    cases stored : shape.root with
    | none => simp [stored] at made
    | some tree => simpa [stored] using made
  · obtain ⟨fine, tokens, compiled⟩ := compile_of_ok pending built
    simp only [fine, compiled, Except.ok.injEq] at made
    rw [stored, made]

end Shape

/-- Whether an event tells what references mean: a slot is noted with what the reference in it
means. -/
def Event.Meant (env : Environment) (named : ShapeId → String → ShapeId → Prop) : Event → Prop
  | .reached ⟨some owner, slot⟩ id => ∃ root target, env.root owner = .ok root ∧
      root.targets[slot]? = some target ∧ target.Means (named owner) id
  | _ => True

namespace Registry

/-- A registry that finds nothing under a name and recalls nothing for a slot but what is meant. -/
structure KeepsTo (registry : Registry) (named : ShapeId → String → ShapeId → Prop) : Prop where
  found : ∀ owner grammar name id, (registry.shape owner).grammar = some grammar →
    registry.lookup grammar name = .ok id → named owner name id
  recalls : ∀ id, (registry.shape id).Recalls (named id)

namespace KeepsTo

variable {registry current : Registry} {kinds : KindTable}
  {named : ShapeId → String → ShapeId → Prop}

theorem setShape (keeps : registry.KeepsTo named) {id : ShapeId} {shape : Shape}
    (becomes : (registry.shape id).Becomes id kinds shape) (recalls : shape.Recalls (named id)) :
    (registry.setShape id shape).KeepsTo named := by
  constructor
  · intro owner grammar name found inside known
    refine keeps.found owner grammar name found ?_ known
    rw [← inside, shape_setShape]
    split
    · rename_i here
      rw [← here.1, becomes.grammar]
    · rfl
  · intro place
    rw [shape_setShape]
    split
    · rename_i here
      exact here.1 ▸ recalls
    · exact keeps.recalls place

theorem scannerOf (keeps : registry.KeepsTo named) (id : ShapeId) :
    (registry.scannerOf id).1.KeepsTo named := by
  have recalls := keeps.recalls id
  obtain ⟨_, _, asked⟩ | ⟨_, _, _, asked⟩ | ⟨_, _, asked⟩ :=
    registry.scannerOf_cases id <;> rw [asked]
  · exact keeps
  · exact keeps.setShape (.scanner id [] _ _) recalls
  · have added : (registry.addScanner .standard).1.KeepsTo named := ⟨keeps.found, keeps.recalls⟩
    exact added.setShape (.scanner id [] _ _) recalls

theorem compile (keeps : registry.KeepsTo named) (id : ShapeId) (kinds : KindTable) :
    (registry.compile id kinds).registry.KeepsTo named :=
  keeps.setShape (.compile id kinds _) ((keeps.recalls id).compile id kinds)

theorem leaveReader (keeps : registry.KeepsTo named) (id : Nat) (reader : Reader) :
    (registry.leaveReader id reader).KeepsTo named :=
  ⟨keeps.found, keeps.recalls⟩

theorem close (keeps : registry.KeepsTo named) (id : ShapeId) :
    (registry.setShape id (registry.shape id).close).KeepsTo named :=
  keeps.setShape (.close id [] _) (keeps.recalls id).close

/-- A reference in a tree is resolved to what it means, be it recalled or found out. -/
theorem means_of_resolve (keeps : registry.KeepsTo named) {owner slot : Nat} {target : ShapeRef}
    {id : ShapeId} {root : Tree} (made : (registry.environment kinds).root owner = .ok root)
    (there : root.targets[slot]? = some target)
    (resolved : registry.resolve ⟨some owner, slot⟩ target = .ok id) :
    target.Means (named owner) id := by
  cases recalled : (registry.shape owner).resolved? slot with
  | some found =>
      simp only [resolve, Option.bind_some, recalled, Except.ok.injEq] at resolved
      obtain ⟨ready, listed⟩ := Shape.resolved?_eq_some recalled
      have stored := (Shape.Becomes.refl owner kinds _).root_eq (environment_root_ok made) ready
      obtain ⟨other, thereToo, means⟩ := keeps.recalls owner ready root stored _ listed
      cases there.symm.trans thereToo
      rwa [resolved] at means
  | none =>
      cases target with
      | shape direct name =>
          simp only [resolve, Option.bind_some, recalled, Except.ok.injEq] at resolved
          exact resolved.symm
      | named name =>
          simp only [resolve, Option.bind_some, recalled] at resolved
          cases inside : (registry.shape owner).grammar with
          | none => simp [inside] at resolved
          | some grammar =>
              rw [inside] at resolved
              cases known : registry.lookup grammar name with
              | error error => simp [known, Except.mapError] at resolved
              | ok found =>
                  simp only [known, Except.mapError, Except.ok.injEq] at resolved
                  exact resolved ▸ keeps.found owner grammar name found inside known

theorem settle (keeps : current.KeepsTo named) (becomes : Becomes kinds registry current)
    {events : List Event}
    (meant : ∀ event ∈ events, event.Meant (registry.environment kinds) named) :
    (current.settle kinds events).1.KeepsTo named := by
  induction events generalizing current with
  | nil => exact keeps
  | cons event rest ih =>
      obtain ⟨first, later⟩ := List.forall_mem_cons.mp meant
      refine ih ?_ (becomes.trans (.settleEvent kinds current event)) later
      match event with
      | .reached ⟨some owner, slot⟩ id =>
          obtain ⟨root, target, made, there, means⟩ := first
          refine (keeps.setShape (.remember owner kinds _ slot id) ?_).compile id kinds
          refine (keeps.recalls owner).remember ?_
          intro ready tree stored
          cases stored.symm.trans ((becomes.shape owner).root_eq (environment_root_ok made) ready)
          exact ⟨target, there, means⟩
      | .reached ⟨none, slot⟩ id => exact keeps.compile id kinds
      | .made id => exact keeps.close id

theorem attempt_meant (keeps : registry.KeepsTo named) {site : Site} {tree : Tree}
    (placed : Tree.Placed (fun id root => (registry.environment kinds).root id = .ok root) site
      tree.targets)
    (weight : Nat) (stream : TokenStream) (complete : Bool) (cursor : Cursor) :
    ∀ event ∈ (tree.attempt (registry.environment kinds) weight stream complete site
      { cursor }).trace,
      event.Meant (registry.environment kinds) named := by
  have reached (site : Site) (target : ShapeRef) (id : ShapeId)
      (placed : Tree.Placed (fun id root => (registry.environment kinds).root id = .ok root)
        site [target])
      (resolved : registry.resolve site target = .ok id) :
      (Event.reached site id).Meant (registry.environment kinds) named := by
    obtain ⟨owner, slot⟩ := site
    cases owner with
    | none => trivial
    | some owner =>
        obtain ⟨root, made, there⟩ := placed.slot
        exact ⟨root, target, made, there, keeps.means_of_resolve made there resolved⟩
  have alongside :=
    Tree.alongside_sameAfter stream (Tree.reaches_placed (registry.environment kinds))
    (fun _ _ _ _ => rfl) rfl rfl rfl (fun site target _ id => reached site target id) fun _ =>
      trivial
  have start : SameAfter (Event.Meant (registry.environment kinds) named) { cursor } { cursor } :=
    ⟨rfl, by simp⟩
  exact (Tree.attempt_parallel alongside weight complete placed start).told_of_sameAfter

theorem lasting (kinds : KindTable) (named : ShapeId → String → ShapeId → Prop) :
    Lasting kinds (KeepsTo · named) where
  asks := scannerOf
  compiles := fun keeps id => keeps.compile id kinds
  reads := leaveReader
  settles := by
    intro registry keeps events noted
    apply keeps.settle (.refl kinds registry)
    intro event held
    cases noted event held with
    | made id => trivial
    | attempted weight stream complete cursor placed inside =>
        exact keeps.attempt_meant placed weight stream complete cursor event inside

end KeepsTo

/-- What was found under a name at some moment of a session, as seen from the grammar of a shape. -/
def Found (history : List Operation) (owner : ShapeId) (name : String) (id : ShapeId) : Prop :=
  ∃ earlier later grammar, history = earlier ++ later ∧
    ((performAll {} earlier).shape owner).grammar = some grammar ∧
    (performAll {} earlier).lookup grammar name = .ok id

end Registry

end RecordGrammar
