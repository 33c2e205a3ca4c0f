/-
What a construction asks of a reader. `Traces` is a derivation that counts
its levels and lists the descriptions it asks for, each with the builder of
that moment; `Serves` does the same for a run of calls on one builder.

No description is for an id that the builder knows at its moment, and what
the builder knows are the ids that it knew at the start and those that were
described since (`DescribesOnce`). That is kept when one list follows
another, so it holds of a derivation by induction over its rules, and of a
run by induction over its calls.

The list is no mere story of the proof. A reader that notes down what it is
asked for, and otherwise answers as before (`Source.recording`), comes to
the same list.
-/
import SymbolGraph.Proofs.Build.Nesting

namespace SymbolGraph

variable {σ H ε : Type}

open Build

-- ======================================================== descriptions

/-- A reader is asked to describe the type behind a handle. -/
structure Description (H : Type) where
  handle : H
  id : UInt32
  /-- The builder at this moment. -/
  builder : Builder
  succeeds : Bool

/-- The ids of the types that were described. -/
def Description.described (events : List (Description H)) : List UInt32 :=
  (events.filter Description.succeeds).map Description.id

/-- The reader is asked for types that the builder does not know at that
moment, and what the builder knows it knew before or was told. -/
structure Source.DescribesOnce (source : Source σ H ε) (b : Builder)
    (events : List (Description H)) (b' : Builder) : Prop where
  fresh : ∀ e ∈ events, (source.typeId e.handle).value = some e.id
    ∧ e.id ≠ 0 ∧ e.builder.knows e.id = false
  new : ∀ id ∈ Description.described events, b.knows id = false
  known : ∀ id, b'.knows id = true
    ↔ b.knows id = true ∨ id ∈ Description.described events
  distinct : (Description.described events).Nodup

section Once

variable {source : Source σ H ε} {b b' b'' : Builder}
  {events events' : List (Description H)}

theorem Source.describesOnce_nil (h : ∀ id, b'.knows id = b.knows id) :
    source.DescribesOnce b [] b' where
  fresh _ he := by cases he
  new _ hid := by cases hid
  known id := by simp [h id, Description.described]
  distinct := List.nodup_nil

/-- One event after another. -/
theorem Source.DescribesOnce.trans (h : source.DescribesOnce b events b')
    (h' : source.DescribesOnce b' events' b'') :
    source.DescribesOnce b (events ++ events') b'' := by
  have happend : Description.described (events ++ events')
      = Description.described events ++ Description.described events' := by
    simp [Description.described]
  have hnew' : ∀ id ∈ Description.described events',
      b.knows id = false ∧ id ∉ Description.described events := by
    intro id hid
    have hunknown := h'.new id hid
    rw [Bool.eq_false_iff, ne_eq, h.known id, not_or] at hunknown
    exact ⟨by simpa using hunknown.1, hunknown.2⟩
  constructor
  · intro e he
    rcases List.mem_append.1 he with he | he
    · exact h.fresh e he
    · exact h'.fresh e he
  · intro id hid
    rw [happend] at hid
    rcases List.mem_append.1 hid with hid | hid
    · exact h.new id hid
    · exact (hnew' id hid).1
  · intro id
    rw [h'.known id, h.known id, happend, List.mem_append, or_assoc]
  · rw [happend]
    refine List.nodup_append.2 ⟨h.distinct, h'.distinct, ?_⟩
    rintro id hid _ hid' rfl
    exact (hnew' id hid').2 hid

end Once

namespace Build

/-- A derivation with at most `n` types nested, and the descriptions that
the reader is asked for, in order. -/
inductive Traces (source : Source σ H ε) :
    Nat → List H → Builder × σ → List (Description H) → List (Answer ε) →
      Builder × σ → Prop
  | nil {n : Nat} {s : Builder × σ} : Traces source n [] s [] [] s
  | answered {n : Nat} {h : H} {hs : List H} {b : Builder} {st st' : σ}
      {s' : Builder × σ} {answer : Answer ε} {events : List (Description H)}
      {answers : List (Answer ε)} :
      Replies source h b st answer st' →
      (∀ e, answer ≠ .error (.source e)) →
      Traces source (n + 1) hs (b, st') events answers s' →
      Traces source (n + 1) (h :: hs) (b, st) events (answer :: answers) s'
  | failed {n : Nat} {h : H} {hs : List H} {id : UInt32} {b : Builder}
      {st : σ} {s' : Builder × σ} {e : ε} {events : List (Description H)}
      {answers : List (Answer ε)} :
      (source.typeId h).value = some id → id ≠ 0 → b.knows id = false →
      (source.describe h st).value.1 = .error e →
      Traces source (n + 1) hs (b, (source.describe h st).value.2) events
        answers s' →
      Traces source (n + 1) (h :: hs) (b, st) (⟨h, id, b, false⟩ :: events)
        (.error (.source e) :: answers) s'
  | described {n : Nat} {h : H} {hs : List H} {id : UInt32} {b : Builder}
      {st : σ} {inner s' : Builder × σ} {node : Node H}
      {linkEvents events : List (Description H)}
      {links answers : List (Answer ε)} :
      (source.typeId h).value = some id → id ≠ 0 → b.knows id = false →
      (source.describe h st).value.1 = .ok node →
      Traces source n node.shape.links
        (b.start id, (source.describe h st).value.2) linkEvents links inner →
      Traces source (n + 1) hs
        (inner.1.finish id node (links.map Except.toOption), inner.2) events
        answers s' →
      Traces source (n + 1) (h :: hs) (b, st)
        (⟨h, id, b, true⟩ :: (linkEvents ++ events)) (.ok id :: answers) s'

section Traces

variable {source : Source σ H ε} {hs : List H} {s s' : Builder × σ}
  {events : List (Description H)} {answers : List (Answer ε)} {n : Nat}

/-- Nothing is forgotten when a type is finished. -/
theorem Builds.unknown_finish {ids : Finset UInt32} {id : UInt32}
    {b : Builder} {st : σ} (h : Builds source hs (b.start id, st) answers s')
    (node : Node H) (links : List (Option UInt32)) :
    unknown ids (s'.1.finish id node links) ≤ unknown ids b := by
  refine unknown_mono fun j hj => ?_
  rw [Builder.knows_finish h.inProgress_of_start]
  exact h.knows_mono (Builder.knows_start_iff.2 (.inr hj))

theorem Traces.builds (h : Traces source n hs s events answers s') :
    Builds source hs s answers s' := by
  induction h with
  | nil => exact .nil
  | answered hreply _ _ ih => exact .replied hreply ih
  | failed hid hne hnew herror _ ih =>
      exact .replied (.undescribed hid hne hnew herror) ih
  | described hid hne hnew hnode _ _ ihlinks ih =>
      exact .described hid hne hnew hnode ihlinks ih

/-- A derivation nests no deeper than there are ids left to come into
progress. -/
theorem Builds.traces {ids : Finset UInt32}
    (hids : ∀ h id, (source.typeId h).value = some id → id ∈ ids)
    (h : Builds source hs s answers s') (hn : unknown ids s.1 < n) :
    ∃ events, Traces source n hs s events answers s' := by
  induction h generalizing n with
  | nil => exact ⟨[], .nil⟩
  | @replied h hs b st st' s' answer answers hreply _ ih =>
      obtain ⟨n, rfl⟩ := Nat.exists_eq_add_one_of_ne_zero (Nat.ne_zero_of_lt hn)
      obtain ⟨events, hrest⟩ := ih hn
      cases hreply with
      | unreadable hid =>
          exact ⟨events, .answered (.unreadable hid) nofun hrest⟩
      | reserved hid => exact ⟨events, .answered (.reserved hid) nofun hrest⟩
      | known hid hne hknown =>
          exact ⟨events, .answered (.known hid hne hknown) nofun hrest⟩
      | undescribed hid hne hnew herror =>
          exact ⟨_, .failed hid hne hnew herror hrest⟩
  | @described h hs id b st inner s' node links answers hid hne hnew hnode
      hlinks _ ihlinks ih =>
      obtain ⟨n, rfl⟩ := Nat.exists_eq_add_one_of_ne_zero (Nat.ne_zero_of_lt hn)
      have hstart := unknown_start (hids h id hid) hnew
      obtain ⟨linkEvents, hlinkTraces⟩ :=
        ihlinks (Nat.lt_of_lt_of_le hstart (Nat.le_of_lt_succ hn))
      obtain ⟨events, hrest⟩ :=
        ih (Nat.lt_of_le_of_lt (hlinks.unknown_finish node _) hn)
      exact ⟨_, .described hid hne hnew hnode hlinkTraces hrest⟩

/-- No type is described twice, and none that the builder knows. -/
theorem Traces.describesOnce (h : Traces source n hs s events answers s') :
    source.DescribesOnce s.1 events s'.1 := by
  induction h with
  | nil => exact Source.describesOnce_nil fun _ => rfl
  | answered _ _ _ ih => exact ih
  | @failed n h hs id b st s' e events answers hid hne hnew _ _ ih =>
      have hfirst : source.DescribesOnce b [⟨h, id, b, false⟩] b := {
        fresh := List.forall_mem_singleton.2 ⟨hid, hne, hnew⟩
        new := by simp [Description.described]
        known := by simp [Description.described]
        distinct := by simp [Description.described] }
      exact hfirst.trans ih
  | @described n h hs id b st inner s' node linkEvents events links answers hid
      hne hnew _ hlinks _ ihlinks ih =>
      have hfirst : source.DescribesOnce b [⟨h, id, b, true⟩] (b.start id) := {
        fresh := List.forall_mem_singleton.2 ⟨hid, hne, hnew⟩
        new := by simpa [Description.described] using hnew
        known := by
          simp [Description.described, Builder.knows_start_iff, or_comm]
        distinct := by simp [Description.described] }
      have hfinish : source.DescribesOnce inner.1 []
          (inner.1.finish id node (links.map Except.toOption)) :=
        Source.describesOnce_nil
          (Builder.knows_finish hlinks.builds.inProgress_of_start node _)
      exact hfirst.trans (ihlinks.trans (hfinish.trans ih))

end Traces

end Build

-- =============================================================== calls

/-- What a builder is asked for from outside. -/
inductive Builder.Call (H : Type) where
  | type (handle : H)
  | function (node : FunctionNode H)

/-- The handles that a call asks for. -/
def Builder.Call.handles : Builder.Call H → List H
  | .type h => [h]
  | .function node => node.places.filterMap id

def Builder.call (source : Source σ H ε) :
    Builder.Call H → Step σ (Answer ε)
  | .type handle => Builder.type source handle
  | .function node => return .ok (← Builder.function source node)

/-- A whole run on one builder. -/
def Builder.calls (source : Source σ H ε) :
    List (Builder.Call H) → Step σ (List (Answer ε))
  | [] => return []
  | call :: rest => do
    let first ← Builder.call source call
    return first :: (← Builder.calls source rest)

/-- Calls behind calls. -/
theorem Builder.calls_append (source : Source σ H ε)
    (calls calls' : List (Builder.Call H)) (s : Builder × σ) :
    (Builder.calls source (calls ++ calls') s).value.2
      = (Builder.calls source calls'
          (Builder.calls source calls s).value.2).value.2 := by
  induction calls generalizing s with
  | nil => rfl
  | cons call calls ih => exact ih _

namespace Build

/-- The calls are answered one after another, with at most `n` types
nested in each, and the reader is asked for these descriptions. -/
inductive Serves (source : Source σ H ε) (n : Nat) :
    List (Builder.Call H) → Builder × σ → List (Description H) →
      List (Answer ε) → Builder × σ → Prop
  | nil {s : Builder × σ} : Serves source n [] s [] [] s
  | type {h : H} {calls : List (Builder.Call H)} {s s' s'' : Builder × σ}
      {events events' : List (Description H)} {answer : Answer ε}
      {answers : List (Answer ε)} :
      Traces source n [h] s events [answer] s' →
      Serves source n calls s' events' answers s'' →
      Serves source n (.type h :: calls) s (events ++ events')
        (answer :: answers) s''
  | stored {node : FunctionNode H} {calls : List (Builder.Call H)}
      {s s' : Builder × σ} {events : List (Description H)}
      {answers : List (Answer ε)} :
      s.1.graph.functions.contains node.id = true →
      Serves source n calls s events answers s' →
      Serves source n (.function node :: calls) s events
        (.ok node.id :: answers) s'
  | function {node : FunctionNode H} {calls : List (Builder.Call H)}
      {s inner s' : Builder × σ} {events events' : List (Description H)}
      {links answers : List (Answer ε)} :
      s.1.graph.functions.contains node.id = false →
      Traces source n (node.places.filterMap id) s events links inner →
      Serves source n calls
        (inner.1.storeFunction node.id
          (functionOf node (links.map Except.toOption)), inner.2)
        events' answers s' →
      Serves source n (.function node :: calls) s (events ++ events')
        (.ok node.id :: answers) s'

section Calls

variable {source : Source σ H ε} {n : Nat} {calls : List (Builder.Call H)}
  {s s' : Builder × σ} {events : List (Description H)}
  {answers : List (Answer ε)}

/-- Over a whole run no type is described twice. -/
theorem Serves.describesOnce (h : Serves source n calls s events answers s') :
    source.DescribesOnce s.1 events s'.1 := by
  induction h with
  | nil => exact Source.describesOnce_nil fun _ => rfl
  | type htraces _ ih => exact htraces.describesOnce.trans ih
  | stored _ _ ih => exact ih
  | @function node calls s inner s' events events' links answers _ htraces _
      ih =>
      -- that a function is stored makes no id known
      have hstore : source.DescribesOnce inner.1 [] (inner.1.storeFunction
          node.id (functionOf node (links.map Except.toOption))) :=
        Source.describesOnce_nil fun _ => rfl
      exact htraces.describesOnce.trans (hstore.trans ih)

/-- What is true after a derivation of its handles, and stays so when a
function is stored, is true after a call. -/
theorem call_preserves {P : Builder × σ → Prop} (source : Source σ H ε)
    (call : Builder.Call H) (hidle : s.1.inProgress = []) (hs : P s)
    (hbuilds : ∀ answers s', Builds source call.handles s answers s' → P s')
    (hstore : ∀ s' id f, P s' → P (s'.1.storeFunction id f, s'.2)) :
    P (Builder.call source call s).value.2 := by
  cases call with
  | type h => exact hbuilds _ _ (builderType_builds source h s hidle)
  | function node =>
      cases hstored : s.1.graph.functions.contains node.id with
      | true =>
          simp only [Builder.call, step_bind, step_pure,
            function_value_of_contains source hstored]
          exact hs
      | false =>
          obtain ⟨links, inner, hlinks, hvalue⟩ :=
            function_builds source hidle hstored
          simp only [Builder.call, step_bind, step_pure, hvalue]
          exact hstore inner _ _ (hbuilds links inner hlinks)

/-- Between two calls nothing is in progress. -/
theorem call_inProgress (source : Source σ H ε) (call : Builder.Call H)
    (hidle : s.1.inProgress = []) :
    (Builder.call source call s).value.2.1.inProgress = [] := by
  apply call_preserves (P := fun s => s.1.inProgress = []) source call hidle
  · exact hidle
  · exact fun _ _ hbuilds => hbuilds.inProgress_eq.trans hidle
  · exact fun _ _ _ hinner => hinner

/-- A call to a reader that answers alike, by a part `f` of the state, comes to
the same. -/
theorem call_simulate {τ : Type} {source : Source τ H ε}
    {source' : Source σ H ε} {f : τ → σ} {s : Builder × τ}
    (hid : ∀ h, (source'.typeId h).value = (source.typeId h).value)
    (hdescribe : ∀ h id st, (source.typeId h).value = some id → id ≠ 0 →
      (source'.describe h (f st)).value
        = ((source.describe h st).value.1, f (source.describe h st).value.2))
    (call : Builder.Call H) (hidle : s.1.inProgress = []) :
    (Builder.call source' call (s.1, f s.2)).value
      = ((Builder.call source call s).value.1,
          (Builder.call source call s).value.2.1,
          f (Builder.call source call s).value.2.2) := by
  cases call with
  | type h =>
      have hbuilds := builderType_builds source h s hidle
      have hbuilds' := builderType_builds source' h (s.1, f s.2) hidle
      obtain ⟨hanswer, hstate⟩ :=
        hbuilds'.unique (hbuilds.simulate hid hdescribe)
      exact Prod.ext (List.singleton_inj.1 hanswer) hstate
  | function node =>
      cases hstored : s.1.graph.functions.contains node.id with
      | true =>
          simp only [Builder.call, step_bind, step_pure,
            function_value_of_contains source hstored,
            function_value_of_contains source' (s := (s.1, f s.2)) hstored]
      | false =>
          obtain ⟨links, inner, hbuilds, hvalue⟩ :=
            function_builds source hidle hstored
          obtain ⟨links', inner', hbuilds', hvalue'⟩ :=
            function_builds source' (s := (s.1, f s.2)) hidle hstored
          obtain ⟨rfl, rfl⟩ :=
            hbuilds'.unique (hbuilds.simulate hid hdescribe)
          simp only [Builder.call, step_bind, step_pure, hvalue, hvalue']

/-- A run from a builder with nothing in progress, at any bound above the
number of ids. -/
theorem calls_serves {ids : Finset UInt32}
    (hids : ∀ h id, (source.typeId h).value = some id → id ∈ ids)
    (hidle : s.1.inProgress = []) :
    ∃ events, Serves source (ids.card + 1) calls s events
      (Builder.calls source calls s).value.1
      (Builder.calls source calls s).value.2 := by
  have hlevels : ∀ b, unknown ids b < ids.card + 1 :=
    fun b => Nat.lt_succ_of_le (unknown_le ids b)
  induction calls generalizing s with
  | nil => exact ⟨[], .nil⟩
  | cons call calls ih =>
      cases call with
      | type h =>
          have hfirst := builderType_builds source h s hidle
          obtain ⟨events, htraces⟩ := hfirst.traces hids (hlevels _)
          obtain ⟨events', hrest⟩ := ih (hfirst.inProgress_eq.trans hidle)
          exact ⟨_, .type htraces hrest⟩
      | function node =>
          cases hstored : s.1.graph.functions.contains node.id with
          | true =>
              obtain ⟨events, hrest⟩ := ih hidle
              refine ⟨events, ?_⟩
              simp only [Builder.calls, Builder.call, step_bind, step_pure,
                function_value_of_contains source hstored]
              exact .stored hstored hrest
          | false =>
              obtain ⟨links, inner, hbuilds, hvalue⟩ :=
                function_builds source hidle hstored
              obtain ⟨events, htraces⟩ := hbuilds.traces hids (hlevels _)
              obtain ⟨events', hrest⟩ := ih (s := (inner.1.storeFunction
                node.id (functionOf node (links.map Except.toOption)), inner.2))
                (hbuilds.inProgress_eq.trans hidle)
              refine ⟨events ++ events', ?_⟩
              simp only [Builder.calls, Builder.call, step_bind, step_pure,
                hvalue]
              exact .function hstored htraces hrest

end Calls

end Build

-- ============================================================ recording

/-- The reader that keeps a list of what it was asked to describe, and
whether it could. -/
def Source.recording (source : Source σ H ε) :
    Source (σ × List (H × Bool)) H ε where
  typeId := source.typeId
  describe h s := do
    let (described, st) ← source.describe h s.1
    return (described, (st, s.2 ++ [(h, described.isOk)]))
  message := source.message

def Description.entry (e : Description H) : H × Bool := (e.handle, e.succeeds)

namespace Build

section Recording

variable {source : Source σ H ε} {n : Nat}
  {s s' : Builder × (σ × List (H × Bool))} {events : List (Description H)}
  {answers : List (Answer ε)}

theorem recording_describe (h : H) (st : σ × List (H × Bool)) :
    (source.recording.describe h st).value
      = ((source.describe h st.1).value.1, (source.describe h st.1).value.2,
          st.2 ++ [(h, (source.describe h st.1).value.1.isOk)]) := rfl

/-- The reader's list is that of the derivation. -/
theorem Traces.recorded {hs : List H}
    (h : Traces source.recording n hs s events answers s') :
    s'.2.2 = s.2.2 ++ events.map Description.entry := by
  induction h with
  | nil => simp
  | answered hreply hanswer _ ih =>
      cases hreply with
      | undescribed _ _ _ _ => exact absurd rfl (hanswer _)
      | _ => exact ih
  | failed _ _ _ herror _ ih =>
      rw [recording_describe] at herror
      rw [ih, recording_describe, herror, List.map_cons,
        List.append_cons _ _ (List.map _ _)]
      rfl
  | described _ _ _ hnode _ _ ihlinks ih =>
      rw [recording_describe] at hnode
      rw [ih, ihlinks, recording_describe, hnode, List.map_cons,
        List.map_append, List.append_assoc,
        List.append_cons _ _ (List.map _ _ ++ _)]
      rfl

theorem Serves.recorded {calls : List (Builder.Call H)}
    (h : Serves source.recording n calls s events answers s') :
    s'.2.2 = s.2.2 ++ events.map Description.entry := by
  induction h with
  | nil => simp
  | type htraces _ ih =>
      rw [ih, htraces.recorded, List.map_append, List.append_assoc]
  | stored _ _ ih => exact ih
  | function _ htraces _ ih =>
      rw [ih, htraces.recorded, List.map_append, List.append_assoc]

/-- The list aside, nothing is changed by keeping it. -/
theorem call_of_recording (call : Builder.Call H)
    (hidle : s.1.inProgress = []) :
    (Builder.call source call (s.1, s.2.1)).value
      = ((Builder.call source.recording call s).value.1,
          (Builder.call source.recording call s).value.2.1,
          (Builder.call source.recording call s).value.2.2.1) :=
  call_simulate (f := Prod.fst) (fun _ => rfl) (fun _ _ _ _ _ => rfl) call hidle

theorem calls_of_recording (calls : List (Builder.Call H))
    (hidle : s.1.inProgress = []) :
    (Builder.calls source calls (s.1, s.2.1)).value
      = ((Builder.calls source.recording calls s).value.1,
          (Builder.calls source.recording calls s).value.2.1,
          (Builder.calls source.recording calls s).value.2.2.1) := by
  induction calls generalizing s with
  | nil => rfl
  | cons call calls ih =>
      have hrest := ih (call_inProgress source.recording call hidle)
      simp only [Builder.calls, step_bind, step_pure,
        call_of_recording call hidle, hrest]

end Recording

end Build

-- ============================================================ all calls

/-- Any run of calls on a reachable builder comes to an end: no level of
the recursion beyond the number of ids and one is ever used, in a call or
in the whole run, and no other bound would change an answer. And over the
whole run the reader is never asked to describe a type that is stored or
in progress at that moment, so it describes each type once at most; what
it is asked for is listed by the reader itself. -/
theorem Builder.Reachable.calls_describe_once {source : Source σ H ε}
    {ids : Finset UInt32}
    (hids : ∀ h id, (source.typeId h).value = some id → id ∈ ids)
    {b : Builder} (hb : b.Reachable) (st : σ)
    (calls : List (Builder.Call H)) :
    let run := (Builder.calls source.recording calls (b, (st, []))).value
    (∀ depth, ids.card < depth → ∀ h s,
        (Build.type source depth h s).value = (Builder.type source h s).value
        ∧ (Builder.type source h s).value.1 ≠ .error .nesting)
      ∧ (Builder.calls source calls (b, st)).value
        = (run.1, run.2.1, run.2.2.1)
      ∧ ∃ events,
        Build.Serves source.recording (ids.card + 1) calls (b, (st, [])) events
          run.1 run.2
        ∧ run.2.2.2 = events.map Description.entry
        ∧ source.DescribesOnce b events run.2.1 := by
  intro run
  obtain ⟨hidle, -⟩ := hb.invariant
  have hserves : ∃ events, Build.Serves source.recording (ids.card + 1) calls
      (b, (st, [])) events run.1 run.2 := Build.calls_serves hids hidle
  obtain ⟨events, hserves⟩ := hserves
  refine ⟨fun depth hdepth h s => Build.type_value_of_lt hids hdepth h s,
    Build.calls_of_recording (s := (b, (st, []))) calls hidle, events, hserves,
    hserves.recorded, ?_⟩
  exact { hserves.describesOnce with }

/-- A reader of three types that cannot all be described: an alias 1 of
itself, a structure 2 with fields of types 3, 1 and 2, and a type 3 that
fails. It counts how often it is asked. -/
def tangledSource : Source Nat (Fin 3) Unit where
  typeId handle := pure (some (UInt32.ofNat (handle.val + 1)))
  describe handle count :=
    let described : Except Unit (Node (Fin 3)) :=
      if handle = 0 then .ok ⟨some "self", 0, .typedef (some 0)⟩
      else if handle = 1 then .ok ⟨some "knot", 8, .aggregate .struct
        [some ⟨7, "lost", 0, 2⟩, some ⟨8, "self", 0, 0⟩,
          some ⟨9, "knot", 4, 1⟩]⟩
      else .error ()
    pure (described, count + 1)
  message _ := "lost"

theorem calls_describe_once_tangledSource :
    let calls : List (Builder.Call (Fin 3)) :=
      [.type 1, .function ⟨4, "tie", some 1, none, [.typed 2], .unknown, 0⟩,
        .type 0]
    let run := (Builder.calls tangledSource.recording calls
      (Builder.new {}, (0, []))).value
    (Builder.new {}).Reachable
      ∧ run.2.1.graph.types.keys = [1, 2]
      ∧ run.2.2.2 = [(1, true), (2, false), (0, true), (2, false)]
      ∧ (Builder.calls tangledSource calls (Builder.new {}, 0)).value
        = (run.1, run.2.1, 4)
      ∧ ∃ events,
        Build.Serves tangledSource.recording 4 calls (Builder.new {}, (0, []))
          events run.1 run.2
        ∧ run.2.2.2 = events.map Description.entry
        ∧ tangledSource.DescribesOnce (Builder.new {}) events run.2.1 := by
  intro calls run
  have hids : ∀ h id, (tangledSource.typeId h).value = some id →
      id ∈ ({1, 2, 3} : Finset UInt32) := by
    intro h id hid
    cases hid
    revert h
    decide
  have hreachable := Builder.Reachable.new {}
  obtain ⟨-, hplain, hevents⟩ :=
    hreachable.calls_describe_once hids 0 calls
  exact ⟨hreachable, by rfl, by rfl, hplain, hevents⟩

end SymbolGraph
