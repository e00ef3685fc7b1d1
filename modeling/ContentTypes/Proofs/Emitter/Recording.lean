import ContentTypes.Emitter

namespace ContentTypes.Emitter

-- A call and what the emitter gave for it.
inductive Exchange where
  | createRecord (name : String) (docs : Docs) (given : RecordHandle)
  | addField (handle : RecordHandle) (name ty : String) (docs : Docs)
  | createAlias (name ty : String) (docs : Docs) (params : List GenericParam) (given : AliasHandle)
  | markExported (name : String)

variable {σ α β : Type}

-- Carries out a call and puts the exchange behind the earlier ones.
def noting (call : StateT σ Logged α) (exchange : α → Exchange) :
    StateT (σ × List Exchange) Logged α := fun (state, exchanges) => do
  let (given, after) ← call state
  return (given, after, exchanges ++ [exchange given])

def recorded (emitter : Emitter σ) : Emitter (σ × List Exchange) where
  createRecord name docs := noting (emitter.createRecord name docs) (.createRecord name docs)
  addField handle name ty docs :=
    noting (emitter.addField handle name ty docs) fun _ => .addField handle name ty docs
  createAlias name ty docs params :=
    noting (emitter.createAlias name ty docs params) (.createAlias name ty docs params)
  markExported name := noting (emitter.markExported name) fun _ => .markExported name

-- The watched work comes out as the work itself does, and the exchanges that it adds to the earlier
-- ones are as told of its value.
def Records (watched : StateT (σ × List Exchange) Logged α) (work : StateT σ Logged α)
    (told : α → List Exchange → Prop) : Prop :=
  ∀ state earlier, ∃ added, told (work state).value.1 added ∧
    watched (state, earlier) =
      ⟨((work state).value.1, (work state).value.2, earlier ++ added), (work state).events⟩

namespace Records

variable {watched : StateT (σ × List Exchange) Logged α} {work : StateT σ Logged α}
variable {told : α → List Exchange → Prop}

theorem pure (value : α) :
    Records (Pure.pure value : StateT (σ × List Exchange) Logged α)
      (Pure.pure value : StateT σ Logged α) fun given added => given = value ∧ added = [] := by
  intro state earlier
  refine ⟨[], ⟨rfl, rfl⟩, ?_⟩
  rw [List.append_nil]
  rfl

-- Work that does not touch the emitter.
theorem lift (logged : Logged α) :
    Records (StateT.lift logged : StateT (σ × List Exchange) Logged α)
      (StateT.lift logged : StateT σ Logged α) fun _ added => added = [] := by
  intro state earlier
  refine ⟨[], rfl, ?_⟩
  rw [List.append_nil]
  rfl

theorem noting (call : StateT σ Logged α) (exchange : α → Exchange) :
    Records (noting call exchange) call fun given added => added = [exchange given] := by
  intro state earlier
  refine ⟨[exchange (call state).value.1], rfl, ?_⟩
  have hstart : Emitter.noting call exchange (state, earlier) =
      ⟨((call state).value.1, (call state).value.2, earlier ++ [exchange (call state).value.1]),
        (call state).events ++ []⟩ := rfl
  rw [hstart, List.append_nil]

theorem bind {watchedNext : α → StateT (σ × List Exchange) Logged β}
    {next : α → StateT σ Logged β} {toldNext : α → β → List Exchange → Prop}
    (hwork : Records watched work told)
    (hnext : ∀ value, Records (watchedNext value) (next value) (toldNext value)) :
    Records (watched >>= watchedNext) (work >>= next) fun given added =>
      ∃ value first second, told value first ∧ toldNext value given second ∧
        added = first ++ second := by
  intro state earlier
  obtain ⟨first, htold, hrun⟩ := hwork state earlier
  obtain ⟨second, htoldNext, hrunNext⟩ :=
    hnext (work state).value.1 (work state).value.2 (earlier ++ first)
  refine ⟨first ++ second, ⟨_, first, second, htold, htoldNext, rfl⟩, ?_⟩
  have hstart : (watched >>= watchedNext) (state, earlier) =
      watched (state, earlier) >>= fun pair => watchedNext pair.1 pair.2 := rfl
  have hboth : (watched >>= watchedNext) (state, earlier) =
      ⟨(watchedNext (work state).value.1 ((work state).value.2, earlier ++ first)).value,
        (work state).events ++
          (watchedNext (work state).value.1 ((work state).value.2, earlier ++ first)).events⟩ := by
    rw [hstart, hrun]
    rfl
  rw [hboth, hrunNext, List.append_assoc]
  rfl

theorem imp {told' : α → List Exchange → Prop} (h : Records watched work told)
    (himp : ∀ value added, told value added → told' value added) :
    Records watched work told' := by
  intro state earlier
  obtain ⟨added, htold, hrun⟩ := h state earlier
  exact ⟨added, himp _ _ htold, hrun⟩

end Records

end ContentTypes.Emitter
