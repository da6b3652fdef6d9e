import FederatedMetrics.Proofs.Workspace.View

/-!
# Projects do not see one another

Two histories of a workspace are compared: one that mixes the operations of all projects, and one that
is left of it when all operations of other projects and all records of others are taken out. Both show
a project the same view at every step, and its replies come from its view. Entities may get other
identifiers and other times in the two histories, so an event says which ones it gives out.
-/

namespace FederatedMetrics

/-- An operation with the identifier and the time that an entity gets if the operation creates
one. -/
structure Event where
  stamp : Stamp
  operation : Operation

namespace Operation

/-- The project that an operation is made for; metrics and records are put in for all projects. -/
def projectId? : Operation → Option Int
  | .defineMetric _ _ _ _ => none
  | .insertRecords _ _ => none
  | .createMapping projectId _ _ => projectId
  | .listMappings projectId => projectId
  | .deleteMapping projectId _ => projectId
  | .getMapping projectId _ => projectId
  | .resolveMapping projectId _ _ => projectId
  | .findCommon projectId _ => projectId
  | .createDerived projectId _ => projectId
  | .listDerived projectId => projectId
  | .deleteDerived projectId _ => projectId
  | .getDerived projectId _ => projectId
  | .normalize projectId _ => projectId
  | .runQuery projectId _ => projectId
  | .executeGroup projectId _ _ _ => projectId
  | .filterValues projectId _ => projectId

/-- Whether an operation is made for a project or for all. -/
def concerns (projectId : Int) (operation : Operation) : Bool :=
  operation.projectId?.all (· = projectId)

/-- What an operation is to a project: without the records of others, and with the identifiers that
it names renamed. -/
def ownPart (projectId : Int) (ρ : Uuid → Uuid) : Operation → Operation
  | .insertRecords category records =>
      .insertRecords category (records.filter fun r => r.projectId = projectId)
  | .deleteMapping other id => .deleteMapping other (ρ id)
  | .deleteDerived other id => .deleteDerived other (ρ id)
  | operation => operation

end Operation

/-- An answer with its identifiers renamed and without times. -/
def Answer.seen (ρ : Uuid → Uuid) : Answer → Answer
  | .mapping m => .mapping (m.seen ρ)
  | .mappings ms => .mappings (ms.map (.seen ρ))
  | .derivedMetric m => .derivedMetric (m.seen ρ)
  | .derivedMetrics ms => .derivedMetrics (ms.map (.seen ρ))
  | answer => answer

/-- A reply to an operation with its identifiers renamed and without times. The only failures that
name an identifier by themselves are those to delete something. -/
def Operation.seenReply (ρ : Uuid → Uuid) :
    Operation → Option (Except Failure Answer) → Option (Except Failure Answer)
  | .deleteMapping _ _, reply => reply.map (·.mapError (Failure.renamed ρ))
  | .deleteDerived _ _, reply => reply.map (·.mapError (Failure.renamed ρ))
  | _, reply => reply.map (·.map (Answer.seen ρ))

namespace Event

def ownPart (projectId : Int) (ρ : Uuid → Uuid) (e : Event) : Event :=
  ⟨⟨ρ e.stamp.id, e.stamp.createdAt⟩, e.operation.ownPart projectId ρ⟩

/-- What a history is to a project: what is made for it or for all, with identifiers renamed. -/
def ownHistory (projectId : Int) (ρ : Uuid → Uuid) (history : List Event) : List Event :=
  (history.filter fun e => e.operation.concerns projectId).map (ownPart projectId ρ)

/-- An event without its time. -/
def timeless (e : Event) : Event := { e with stamp := ⟨e.stamp.id, .zero⟩ }

end Event

namespace Operation

theorem concerns_iff {projectId : Int} {operation : Operation} :
    operation.concerns projectId = true ↔
      ∀ other, operation.projectId? = some other → other = projectId := by
  rw [concerns]
  cases operation.projectId? <;> simp

/-- The part of an operation is made for the same project. -/
theorem projectId?_ownPart (projectId : Int) (ρ : Uuid → Uuid) (operation : Operation) :
    (operation.ownPart projectId ρ).projectId? = operation.projectId? := by
  cases operation <;> rfl

theorem ownPart_ownPart (projectId : Int) (ρ : Uuid → Uuid) (operation : Operation) :
    (operation.ownPart projectId ρ).ownPart projectId id = operation.ownPart projectId ρ := by
  cases operation with
  | insertRecords c records => simp [ownPart]
  | _ => rfl

end Operation

namespace Event

variable {projectId : Int} {ρ : Uuid → Uuid} {e : Event} {rest : List Event}

theorem ownHistory_cons_of_own
    (h : ∀ other, e.operation.projectId? = some other → other = projectId) :
    ownHistory projectId ρ (e :: rest) = e.ownPart projectId ρ :: ownHistory projectId ρ rest :=
  congrArg (List.map _) <|
    List.filter_cons_of_pos (p := fun e : Event => e.operation.concerns projectId)
      (Operation.concerns_iff.mpr h)

theorem ownHistory_cons_of_foreign
    (h : ¬ ∀ other, e.operation.projectId? = some other → other = projectId) :
    ownHistory projectId ρ (e :: rest) = ownHistory projectId ρ rest :=
  congrArg (List.map _) <|
    List.filter_cons_of_neg (p := fun e : Event => e.operation.concerns projectId)
      (mt Operation.concerns_iff.mp h)

/-- Nothing is taken out twice. -/
theorem ownHistory_ownHistory (projectId : Int) (ρ : Uuid → Uuid) (history : List Event) :
    ownHistory projectId id (ownHistory projectId ρ history) = ownHistory projectId ρ history := by
  have hconcerns : ∀ e ∈ ownHistory projectId ρ history, e.operation.concerns projectId = true := by
    intro e he
    obtain ⟨original, horiginal, rfl⟩ := List.mem_map.mp he
    have hconcerns := (List.mem_filter.mp horiginal).2
    rwa [Operation.concerns, ownPart, Operation.projectId?_ownPart]
  have htwice : ownPart projectId id ∘ ownPart projectId ρ = ownPart projectId ρ := by
    funext e
    rw [Function.comp_apply, ownPart, ownPart, Operation.ownPart_ownPart]
    rfl
  calc ownHistory projectId id (ownHistory projectId ρ history)
    _ = (ownHistory projectId ρ history).map (ownPart projectId id) :=
        congrArg (List.map _) (List.filter_eq_self.mpr hconcerns)
    _ = ownHistory projectId ρ history := by rw [ownHistory, List.map_map, htwice]

theorem map_timeless_ownHistory (projectId : Int) (history : List Event) :
    (ownHistory projectId id history).map timeless =
      ownHistory projectId id (history.map timeless) := by
  rw [ownHistory, ownHistory, List.filter_map, List.map_map, List.map_map]
  rfl

/-- A history of a project's own is the same to it, whatever its times are. -/
theorem ownHistory_of_timeless {full own : List Event}
    (h : own.map timeless = (ownHistory projectId ρ full).map timeless) :
    (ownHistory projectId id own).map timeless = (ownHistory projectId ρ full).map timeless := by
  calc (ownHistory projectId id own).map timeless
    _ = ownHistory projectId id ((ownHistory projectId ρ full).map timeless) := by
        rw [map_timeless_ownHistory, h]
    _ = (ownHistory projectId ρ full).map timeless := by
        rw [← map_timeless_ownHistory, ownHistory_ownHistory]

end Event

namespace Workspace

/-- The workspace in which the next entity gets a stamp. -/
def stamped (w : Workspace) (stamp : Stamp) : Workspace :=
  { w with ids := fun _ => stamp.id, clock := stamp.createdAt }

/-- Carry out an operation in which a new entity gets the stamp of the event. -/
def carryOut (w : Workspace) (e : Event) : Option (Except Failure Answer) × Workspace :=
  (w.stamped e.stamp).perform e.operation

/-- What a project is answered in a history, with identifiers renamed and without times. -/
def answersTo (projectId : Int) (ρ : Uuid → Uuid) :
    Workspace → List Event → List (Option (Except Failure Answer))
  | _, [] => []
  | w, e :: rest =>
      let answers := answersTo projectId ρ (w.carryOut e).2 rest
      if e.operation.projectId? = some projectId then
        e.operation.seenReply ρ (w.carryOut e).1 :: answers
      else answers

variable {projectId : Int} {ρ : Uuid → Uuid}

/-- The view in which the next entity gets the stamp that it gets in the whole. -/
def shownTo (w : Workspace) (projectId : Int) (ρ : Uuid → Uuid) : Workspace :=
  (w.viewOf projectId ρ).stamped (w.nextStamp.seen ρ)

theorem viewOf_shownTo (w : Workspace) (projectId : Int) (ρ : Uuid → Uuid) :
    (w.shownTo projectId ρ).viewOf projectId id = w.viewOf projectId ρ :=
  viewOf_viewOf w projectId ρ

/-- The view mirrors an operation: it replies what the project sees of the reply, and what it leaves
is what the project sees of what is left. -/
structure Mirrors (projectId : Int) (ρ : Uuid → Uuid) (operation : Operation)
    (whole view : Option (Except Failure Answer) × Workspace) : Prop where
  reply_eq : operation.seenReply ρ whole.1 = view.1
  later_eq : whole.2.viewOf projectId ρ = view.2.viewOf projectId id

theorem mirrors_updateStore {operation : Operation}
    (hreply : operation.seenReply ρ (some (.ok .done)) = some (.ok .done))
    (w : Workspace) (c : Category) {f g : RecordStore → RecordStore}
    (h : ∀ s, (f s).ofProject projectId = g (s.ofProject projectId)) :
    Mirrors projectId ρ operation (some (.ok .done), w.updateStore c f)
      (some (.ok .done), (w.shownTo projectId ρ).updateStore c g) where
  reply_eq := hreply
  later_eq := by
    calc (w.updateStore c f).viewOf projectId ρ
      _ = ((w.updateStore c f).viewOf projectId ρ).viewOf projectId id :=
          (viewOf_viewOf _ projectId ρ).symm
      _ = ((w.viewOf projectId ρ).updateStore c g).viewOf projectId id := by
          rw [viewOf_updateStore w projectId ρ c h]

theorem mirrors_createMapping (w : Workspace) (projectId : Int) (ρ : Uuid → Uuid)
    (displayName : String) (properties : List Property) :
    Mirrors projectId ρ (.createMapping projectId displayName properties)
      (w.perform (.createMapping projectId displayName properties))
      ((w.shownTo projectId ρ).perform (.createMapping projectId displayName properties)) := by
  have hcreate : (w.shownTo projectId ρ).mappings.create (w.shownTo projectId ρ).nextStamp projectId
      displayName properties = _ :=
    w.mappings.create_viewOf projectId ρ w.nextStamp displayName properties
  simp only [perform_createMapping, createMapping, hcreate]
  cases w.mappings.create w.nextStamp projectId displayName properties with
  | error f => exact ⟨rfl, (viewOf_shownTo w projectId ρ).symm⟩
  | ok created =>
      exact ⟨rfl, (viewOf_viewOf { w with mappings := created.2 } projectId ρ).symm⟩

theorem mirrors_createDerived (w : Workspace) (projectId : Int) (ρ : Uuid → Uuid)
    (request : NewDerivedMetric) :
    Mirrors projectId ρ (.createDerived projectId request)
      (w.perform (.createDerived projectId request))
      ((w.shownTo projectId ρ).perform (.createDerived projectId request)) := by
  have hcreate : (w.shownTo projectId ρ).derived.create (w.shownTo projectId ρ).nextStamp projectId
      request = _ :=
    w.derived.create_viewOf projectId ρ w.nextStamp request
  simp only [perform_createDerived, createDerived, hcreate]
  cases w.derived.create w.nextStamp projectId request with
  | error f => exact ⟨rfl, (viewOf_shownTo w projectId ρ).symm⟩
  | ok created => exact ⟨rfl, (viewOf_viewOf { w with derived := created.2 } projectId ρ).symm⟩

theorem mirrors_deleteMapping (hρ : Function.Injective ρ) (w : Workspace) (projectId : Int)
    (id : Uuid) :
    Mirrors projectId ρ (.deleteMapping projectId id) (w.perform (.deleteMapping projectId id))
      ((w.shownTo projectId ρ).perform (.deleteMapping projectId (ρ id))) := by
  have hdelete : (w.shownTo projectId ρ).mappings.delete projectId (ρ id) = _ :=
    w.mappings.delete_viewOf projectId hρ id
  simp only [perform_deleteMapping, deleteMapping, hdelete]
  cases w.mappings.delete projectId id with
  | error f => exact ⟨rfl, (viewOf_shownTo w projectId ρ).symm⟩
  | ok later => exact ⟨rfl, (viewOf_viewOf { w with mappings := later } projectId ρ).symm⟩

theorem mirrors_deleteDerived (hρ : Function.Injective ρ) (w : Workspace) (projectId : Int)
    (id : Uuid) :
    Mirrors projectId ρ (.deleteDerived projectId id) (w.perform (.deleteDerived projectId id))
      ((w.shownTo projectId ρ).perform (.deleteDerived projectId (ρ id))) := by
  have hdelete : (w.shownTo projectId ρ).derived.delete projectId (ρ id) = _ :=
    w.derived.delete_viewOf projectId hρ id
  simp only [perform_deleteDerived, deleteDerived, hdelete]
  cases w.derived.delete projectId id with
  | error f => exact ⟨rfl, (viewOf_shownTo w projectId ρ).symm⟩
  | ok later => exact ⟨rfl, (viewOf_viewOf { w with derived := later } projectId ρ).symm⟩

theorem mirrors_normalize (w : Workspace) (projectId : Int) (ρ : Uuid → Uuid) (group : QueryGroup) :
    Mirrors projectId ρ (.normalize projectId group) (w.perform (.normalize projectId group))
      ((w.shownTo projectId ρ).perform (.normalize projectId group)) := by
  have hplans : ((w.shownTo projectId ρ).resolving
      (((w.shownTo projectId ρ).source projectId).normalize (w.shownTo projectId ρ).derived group)).1 =
      (w.resolving ((w.source projectId).normalize w.derived group)).1 :=
    w.planned_viewOf projectId ρ group
  rw [perform_normalize, perform_normalize, hplans]
  constructor
  · cases (w.resolving ((w.source projectId).normalize w.derived group)).1 with
    | error f => rfl
    | ok plans => rfl
  · rw [viewOf_resolving, viewOf_resolving, viewOf_shownTo]

theorem mirrors_executeGroup (w : Workspace) (projectId : Int) (ρ : Uuid → Uuid)
    (group : QueryGroup) (combine : Bool) (options : ExecutionOptions) :
    Mirrors projectId ρ (.executeGroup projectId group combine options)
      (w.perform (.executeGroup projectId group combine options))
      ((w.shownTo projectId ρ).perform (.executeGroup projectId group combine options)) := by
  have houtcome : ((w.shownTo projectId ρ).executeGroup projectId group combine options).1 =
      (w.executeGroup projectId group combine options).1 :=
    Engine.execute_congr (w.agreeFor_registry projectId ρ) (w.planned_viewOf projectId ρ group)
      options combine _ _
  rw [perform_executeGroup, perform_executeGroup, houtcome]
  constructor
  · cases (w.executeGroup projectId group combine options).1 with
    | none => rfl
    | some outcome => rfl
  · rw [viewOf_executeGroup, viewOf_executeGroup, viewOf_shownTo]

section Plain

variable {α : Type} {operation : Operation}
  (hplain : operation.seenReply ρ = fun reply => reply.map (·.map (Answer.seen ρ)))

include hplain

theorem mirrors_map (w : Workspace) {x : Option (Except Failure α)} {f : α → α} {g : α → Answer}
    (hg : ∀ a, (g a).seen ρ = g (f a)) :
    Mirrors projectId ρ operation (x.map (·.map g), w)
      ((x.map (·.map f)).map (·.map g), w.shownTo projectId ρ) where
  reply_eq := by
    rw [hplain]
    match x with
    | none => rfl
    | some (.error _) => rfl
    | some (.ok a) => exact congrArg (fun answer => some (Except.ok answer)) (hg a)
  later_eq := (viewOf_shownTo w projectId ρ).symm

/-- What is read is seen as its own view gives it. -/
theorem mirrors_read (w : Workspace) {x y : Except Failure α} {f : α → α} {g : α → Answer}
    (h : y = x.map f) (hg : ∀ a, (g a).seen ρ = g (f a)) :
    Mirrors projectId ρ operation (w.read (x.map g)) ((w.shownTo projectId ρ).read (y.map g)) := by
  subst h
  exact mirrors_map hplain w (x := some x) hg

/-- What bears no identifier and no time is the same in the view. -/
theorem mirrors_reply (w : Workspace) {x y : Option (Except Failure α)} {g : α → Answer} (h : y = x)
    (hg : ∀ a, (g a).seen ρ = g a) :
    Mirrors projectId ρ operation (x.map (·.map g), w)
      (y.map (·.map g), w.shownTo projectId ρ) := by
  subst h
  have hsame : y.map (·.map id) = y := by
    obtain _ | (_ | _) := y <;> rfl
  have hmirrors : Mirrors projectId ρ operation (y.map (·.map g), w)
      ((y.map (·.map id)).map (·.map g), w.shownTo projectId ρ) :=
    mirrors_map hplain w hg
  rwa [hsame] at hmirrors

end Plain

/-- The view of a project mirrors the operations that are made for it or for all. -/
theorem mirrors_perform (hρ : Function.Injective ρ) (w : Workspace) {operation : Operation}
    (h : ∀ other, operation.projectId? = some other → other = projectId) :
    Mirrors projectId ρ operation (w.perform operation)
      ((w.shownTo projectId ρ).perform (operation.ownPart projectId ρ)) := by
  cases operation with
  | defineMetric c displayCategory name d =>
      exact mirrors_updateStore rfl w c fun s => s.ofProject_define projectId displayCategory name d
  | insertRecords c records =>
      exact mirrors_updateStore rfl w c fun s => s.ofProject_insert projectId records
  | createMapping other displayName properties =>
      obtain rfl := h other rfl
      exact mirrors_createMapping w other ρ displayName properties
  | listMappings other =>
      obtain rfl := h other rfl
      have hlist := w.mappings.ofProject_viewOf other ρ
      exact mirrors_read (x := .ok (w.mappings.ofProject other)) (g := .mappings) rfl w
        (congrArg Except.ok hlist) fun _ => rfl
  | deleteMapping other id =>
      obtain rfl := h other rfl
      exact mirrors_deleteMapping hρ w other id
  | getMapping other name =>
      obtain rfl := h other rfl
      exact mirrors_read rfl w (w.mappings.get_viewOf other ρ name) fun _ => rfl
  | resolveMapping other name displayCategory =>
      obtain rfl := h other rfl
      have hresolve := w.mappings.resolve_viewOf other ρ name displayCategory
      exact mirrors_reply rfl w (congrArg some hresolve) fun _ => rfl
  | findCommon other requests =>
      obtain rfl := h other rfl
      exact mirrors_read rfl w (w.mappings.findCommon_viewOf other ρ w.derived requests) fun _ => rfl
  | createDerived other request =>
      obtain rfl := h other rfl
      exact mirrors_createDerived w other ρ request
  | listDerived other =>
      obtain rfl := h other rfl
      have hlist := w.derived.ofProject_viewOf other ρ
      exact mirrors_read (x := .ok (w.derived.ofProject other)) (g := .derivedMetrics) rfl w
        (congrArg Except.ok hlist) fun _ => rfl
  | deleteDerived other id =>
      obtain rfl := h other rfl
      exact mirrors_deleteDerived hρ w other id
  | getDerived other name =>
      obtain rfl := h other rfl
      exact mirrors_read rfl w (w.derived.get_viewOf other ρ name) fun _ => rfl
  | normalize other group =>
      obtain rfl := h other rfl
      exact mirrors_normalize w other ρ group
  | runQuery other query =>
      obtain rfl := h other rfl
      have hrun := (w.agreeFor_registry other ρ).run query w.options
      exact mirrors_reply rfl w (congrArg Reply.result? hrun) fun _ => rfl
  | executeGroup other group combine options =>
      obtain rfl := h other rfl
      exact mirrors_executeGroup w other ρ group combine options
  | filterValues other request =>
      obtain rfl := h other rfl
      exact mirrors_reply rfl w (congrArg Reply.result? (w.lookup_viewOf other ρ request)) fun _ => rfl

section Others

variable {other : Int} (w : Workspace) (hother : other ≠ projectId)

include hother

theorem viewOf_createMapping (displayName : String) (properties : List Property) :
    (w.createMapping other displayName properties).2.viewOf projectId ρ = w.viewOf projectId ρ := by
  rw [createMapping]
  split
  · rfl
  · rename_i m mappings hcreate
    simp only [viewOf, MappingStore.viewOf_of_create ρ hother hcreate]

theorem viewOf_createDerived (request : NewDerivedMetric) :
    (w.createDerived other request).2.viewOf projectId ρ = w.viewOf projectId ρ := by
  rw [createDerived]
  split
  · rfl
  · rename_i m derived hcreate
    simp only [viewOf, DerivedStore.viewOf_of_create ρ hother hcreate]

theorem viewOf_deleteMapping (id : Uuid) :
    (w.deleteMapping other id).2.viewOf projectId ρ = w.viewOf projectId ρ := by
  rw [deleteMapping]
  split
  · rfl
  · rename_i mappings hdelete
    simp only [viewOf, MappingStore.viewOf_of_delete ρ hother hdelete]

theorem viewOf_deleteDerived (id : Uuid) :
    (w.deleteDerived other id).2.viewOf projectId ρ = w.viewOf projectId ρ := by
  rw [deleteDerived]
  split
  · rfl
  · rename_i derived hdelete
    simp only [viewOf, DerivedStore.viewOf_of_delete ρ hother hdelete]

/-- A project does not see what operations of others do. -/
theorem viewOf_perform {operation : Operation} (h : operation.projectId? = some other) :
    (w.perform operation).2.viewOf projectId ρ = w.viewOf projectId ρ := by
  cases operation with
  | defineMetric _ _ _ _ => cases h
  | insertRecords _ _ => cases h
  | createMapping creator displayName properties =>
      obtain rfl := Option.some.inj h
      rw [perform_createMapping, viewOf_createMapping w hother]
  | deleteMapping owner id =>
      obtain rfl := Option.some.inj h
      rw [perform_deleteMapping, viewOf_deleteMapping w hother]
  | createDerived creator request =>
      obtain rfl := Option.some.inj h
      rw [perform_createDerived, viewOf_createDerived w hother]
  | deleteDerived owner id =>
      obtain rfl := Option.some.inj h
      rw [perform_deleteDerived, viewOf_deleteDerived w hother]
  | normalize asker group => rw [perform_normalize, viewOf_resolving]
  | executeGroup asker group combine options => rw [perform_executeGroup, viewOf_executeGroup]
  | _ => rfl

end Others

/-- The answers that a view gives in a history of its own. -/
def viewAnswers (projectId : Int) : Workspace → List Event → List (Option (Except Failure Answer))
  | _, [] => []
  | view, e :: rest =>
      let answers := viewAnswers projectId ((view.carryOut e).2.viewOf projectId id) rest
      if e.operation.projectId? = some projectId then (view.carryOut e).1 :: answers else answers

/-- What a project is answered depends on nothing but what it sees of the workspace and of the
history. -/
theorem answersTo_eq_viewAnswers (hρ : Function.Injective ρ) (w : Workspace) (history : List Event) :
    w.answersTo projectId ρ history =
      (w.viewOf projectId ρ).viewAnswers projectId
        ((Event.ownHistory projectId ρ history).map Event.timeless) := by
  induction history generalizing w with
  | nil => rfl
  | cons e rest ih =>
      by_cases h : ∀ other, e.operation.projectId? = some other → other = projectId
      · obtain ⟨hreply, hlater⟩ : Mirrors projectId ρ e.operation (w.carryOut e)
            ((w.viewOf projectId ρ).carryOut (e.ownPart projectId ρ).timeless) :=
          mirrors_perform hρ (w.stamped e.stamp) h
        have hproject : (e.ownPart projectId ρ).timeless.operation.projectId? =
            e.operation.projectId? := Operation.projectId?_ownPart projectId ρ _
        rw [Event.ownHistory_cons_of_own h, List.map_cons, answersTo, viewAnswers, ih, hproject,
          hreply, hlater]
      · obtain ⟨other, hforeign, hother⟩ : ∃ other,
            e.operation.projectId? = some other ∧ other ≠ projectId := by simpa using h
        have hlater : (w.carryOut e).2.viewOf projectId ρ = w.viewOf projectId ρ :=
          viewOf_perform (w.stamped e.stamp) hother hforeign
        rw [Event.ownHistory_cons_of_foreign h, answersTo, ih, hlater, hforeign]
        exact if_neg fun hsame => hother (Option.some.inj hsame)

/-- Projects are isolated. A project is answered as if only its own operations had been made, and only
its own records had been put in, up to the identifiers and the times of new entities: those of the two
histories may differ, as long as a renaming takes the identifiers of one into those of the other. -/
theorem answersTo_of_ownHistory (hρ : Function.Injective ρ) {full own : List Event}
    (hown : own.map Event.timeless = (Event.ownHistory projectId ρ full).map Event.timeless)
    (zones : Zones) (backends : PerCategory (Option Backend)) (options : ExecutionOptions)
    (ids otherIds : Nat → Uuid) :
    (fresh zones backends options ids).answersTo projectId ρ full =
      (fresh zones backends options otherIds).answersTo projectId id own := by
  calc (fresh zones backends options ids).answersTo projectId ρ full
    _ = ((fresh zones backends options ids).viewOf projectId ρ).viewAnswers projectId
          ((Event.ownHistory projectId ρ full).map Event.timeless) :=
        answersTo_eq_viewAnswers hρ _ _
    _ = ((fresh zones backends options otherIds).viewOf projectId id).viewAnswers projectId
          ((Event.ownHistory projectId id own).map Event.timeless) := by
        rw [Event.ownHistory_of_timeless hown]
        rfl
    _ = (fresh zones backends options otherIds).answersTo projectId id own :=
        (answersTo_eq_viewAnswers Function.injective_id _ _).symm

/-- A renaming of identifiers. -/
def nextId (id : Uuid) : Uuid := ⟨id.bits + 1⟩

theorem nextId_injective : Function.Injective nextId := by
  intro a b h
  obtain ⟨bits⟩ := a
  obtain ⟨other⟩ := b
  simpa [nextId] using h

/-- The creation of a mapping for the countries of visits. -/
def createCountry (projectId : Int) : Operation :=
  .createMapping projectId "Country" [⟨.events, "visits", "", "country", .categorical, ""⟩]

def visitFrom (projectId : Int) (country : String) : Record :=
  ⟨projectId, "visits", "", 0, [("country", .str country)]⟩

/-- Two projects create mappings of the same name, put in records together and delete their mappings; one
of them lists its countries before. -/
def twoProjects : List Event :=
  [⟨⟨⟨1⟩, ⟨10, 0⟩⟩, createCountry 2⟩,
    ⟨⟨⟨2⟩, ⟨20, 0⟩⟩, createCountry 1⟩,
    ⟨⟨⟨3⟩, ⟨30, 0⟩⟩, .insertRecords .events [visitFrom 2 "Peru", visitFrom 1 "Chile"]⟩,
    ⟨⟨⟨3⟩, ⟨40, 0⟩⟩, .deleteMapping 2 ⟨1⟩⟩,
    ⟨⟨⟨3⟩, ⟨50, 0⟩⟩, .filterValues 1 ⟨none, "", "", "country", "", true⟩⟩,
    ⟨⟨⟨3⟩, ⟨60, 0⟩⟩, .deleteMapping 1 ⟨2⟩⟩]

/-- The first project by itself, with other identifiers and at other times. -/
def oneProject : List Event :=
  [⟨⟨⟨3⟩, ⟨1, 0⟩⟩, createCountry 1⟩,
    ⟨⟨⟨4⟩, ⟨2, 0⟩⟩, .insertRecords .events [visitFrom 1 "Chile"]⟩,
    ⟨⟨⟨4⟩, ⟨3, 0⟩⟩, .filterValues 1 ⟨none, "", "", "country", "", true⟩⟩,
    ⟨⟨⟨4⟩, ⟨4, 0⟩⟩, .deleteMapping 1 ⟨3⟩⟩]

/-- A workspace in which records serve all categories. -/
def recorded : Workspace :=
  .fresh (fun _ => none) (.all (some .records)) .standard fun n => ⟨BitVec.ofNat 128 n⟩

/-- The first project only finds its own country, and is answered as if it were alone. -/
theorem answersTo_of_ownHistory_twoProjects :
    oneProject.map Event.timeless = (Event.ownHistory 1 nextId twoProjects).map Event.timeless ∧
      recorded.answersTo 1 nextId twoProjects = recorded.answersTo 1 id oneProject ∧
      (recorded.answersTo 1 nextId twoProjects)[1]? = some (some (.ok (.values ["Chile"]))) := by
  have hown : oneProject.map Event.timeless =
      (Event.ownHistory 1 nextId twoProjects).map Event.timeless := rfl
  exact ⟨hown, answersTo_of_ownHistory nextId_injective hown _ _ _ _ _, rfl⟩

end Workspace

end FederatedMetrics
