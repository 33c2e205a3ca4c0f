/-
The lengths in a JSON document that is not too long itself can be counted
in 64 bits (`countable_of_decode`): its texts and lists are no longer than
the document. So the binary format can hold every graph that is read from
such a document, as far as lengths go.
-/
import SymbolGraph.Proofs.Codec.Binary
import SymbolGraph.Proofs.Codec.Json.Bounds

namespace SymbolGraph.Json

variable {α : Type} {n : Nat} {P : α → Prop} {r : Reader α}

/-- What holds of a member if it has been read. -/
def IfRead (P : α → Prop) : Option α → Prop
  | none => True
  | some a => P a

theorem IfRead.getD {o : Option α} {a : α} (h : IfRead P o) (ha : P a) :
    P (o.getD a) := by
  cases o with
  | none => exact ha
  | some b => exact h

/-- What holds of all that was read holds of a table of it. -/
theorem of_mem_ofList {l : List (UInt32 × α)} (h : ∀ e ∈ l, P e.2) :
    ∀ a ∈ (Table.ofList l).values, P a := by
  intro a ha
  obtain ⟨k, hget⟩ := Table.mem_values.1 ha
  exact h _ (Table.mem_of_get?_ofList hget)

section Graphs

variable (hn : n < 2 ^ 64)

include hn

theorem bounded_shortText :
    Bounded n (fun s => (Utf8.encode s).length < 2 ^ 64) textValue := by
  intro input s rest hinput hrun
  obtain ⟨hrest, hs⟩ := bounded_textValue input s rest hinput hrun
  exact ⟨hrest, Nat.lt_of_le_of_lt hs hn⟩

theorem bounded_shortList (h : Bounded n P r) :
    Bounded n (fun l => l.length < 2 ^ 64 ∧ ∀ a ∈ l, P a) (listValue r) := by
  intro input l rest hinput hrun
  obtain ⟨hrest, hlength, hl⟩ := bounded_listValue h input l rest hinput hrun
  exact ⟨hrest, Nat.lt_of_le_of_lt hlength hn, hl⟩

theorem bounded_fieldValue :
    Bounded n (fun f => (Utf8.encode f.name).length < 2 ^ 64) fieldValue := by
  have hkeeps : Keeps n (fun p : FieldParts =>
      IfRead (fun s => (Utf8.encode s).length < 2 ^ 64) p.name)
      fieldMembers := by
    refine .cons (fun _ hp => shrinks_u32Value.then fun _ => .pure hp) ?_
    refine .cons (fun _ _ => (bounded_shortText hn).bind fun s hs =>
      .pure hs) ?_
    refine .cons (fun _ hp => shrinks_u32Value.then fun _ => .pure hp) ?_
    refine .cons (fun _ hp => shrinks_i32Value.then fun _ => .pure hp) ?_
    refine .cons (fun _ hp => shrinks_boolValue.then fun _ => .pure hp) ?_
    exact .cons (fun _ hp => shrinks_u32Value.then fun _ => .pure hp) keeps_nil
  exact (bounded_recordValue hkeeps _ {} trivial).bind fun p hp =>
    .pure (hp.getD (by decide))

theorem bounded_typeValue : Bounded n TypeSymbol.Countable typeValue := by
  have hkeeps : Keeps n (fun p : TypeParts =>
      IfRead (fun s => (Utf8.encode s).length < 2 ^ 64) p.name
      ∧ IfRead (fun l => l.length < 2 ^ 64
        ∧ ∀ f ∈ l, (Utf8.encode f.name).length < 2 ^ 64) p.fields)
      typeMembers := by
    refine .cons (fun _ hp => shrinks_u32Value.then fun _ => .pure hp) ?_
    refine .cons (fun _ hp => (bounded_shortText hn).bind fun s hs =>
      .pure ⟨hs, hp.2⟩) ?_
    refine .cons (fun _ hp => shrinks_u8Value.then fun _ => .pure hp) ?_
    refine .cons (fun _ hp => shrinks_u64Value.then fun _ => .pure hp) ?_
    refine .cons (fun _ hp => shrinks_u32Value.then fun _ => .pure hp) ?_
    refine .cons (fun _ hp =>
      (bounded_shortList hn (bounded_fieldValue hn)).bind fun l hl =>
        .pure ⟨hp.1, hl⟩) ?_
    exact .cons (fun _ hp => shrinks_u32Value.then fun _ => .pure hp) keeps_nil
  refine (bounded_recordValue hkeeps _ {} ⟨trivial, trivial⟩).bind
    fun p hp => .pure ?_
  have hfields := hp.2.getD (a := []) ⟨by decide, nofun⟩
  exact ⟨hp.1.getD (by decide), hfields.1, hfields.2⟩

theorem bounded_functionValue :
    Bounded n FunctionSymbol.Countable functionValue := by
  have hkeeps : Keeps n (fun p : FunctionParts =>
      IfRead (fun s => (Utf8.encode s).length < 2 ^ 64) p.name
      ∧ IfRead (fun l => l.length < 2 ^ 64) p.argumentTypes)
      functionMembers := by
    refine .cons (fun _ hp => shrinks_u32Value.then fun _ => .pure hp) ?_
    refine .cons (fun _ hp => (bounded_shortText hn).bind fun s hs =>
      .pure ⟨hs, hp.2⟩) ?_
    refine .cons (fun _ hp => shrinks_u32Value.then fun _ => .pure hp) ?_
    refine .cons (fun _ hp => shrinks_u32Value.then fun _ => .pure hp) ?_
    refine .cons (fun _ hp =>
      (bounded_shortList hn shrinks_u32Value).bind fun l hl =>
        .pure ⟨hp.1, hl.1⟩) ?_
    refine .cons (fun _ hp => shrinks_u8Value.then fun _ => .pure hp) ?_
    exact .cons (fun _ hp => shrinks_u64Value.then fun _ => .pure hp) keeps_nil
  exact (bounded_recordValue hkeeps _ {} ⟨trivial, trivial⟩).bind fun p hp =>
    .pure ⟨hp.1.getD (by decide), hp.2.getD (by decide)⟩

theorem bounded_graphValue : Bounded n Graph.Countable graphValue := by
  have hkeeps : Keeps n (fun p : GraphParts =>
      IfRead (fun l => ∀ e ∈ l, e.2.Countable) p.types
      ∧ IfRead (fun l => ∀ e ∈ l, e.2.Countable) p.functions) graphMembers := by
    refine .cons (fun _ hp => shrinks_u32Value.then fun _ => .pure hp) ?_
    refine .cons (fun _ hp => shrinks_u8Value.then fun _ => .pure hp) ?_
    refine .cons (fun _ hp => shrinks_u8Value.then fun _ => .pure hp) ?_
    refine .cons (fun _ hp =>
      (bounded_idMapValue (bounded_typeValue hn)).bind fun l hl =>
        .pure ⟨hl, hp.2⟩) ?_
    exact .cons (fun _ hp =>
      (bounded_idMapValue (bounded_functionValue hn)).bind fun l hl =>
        .pure ⟨hp.1, hl⟩) keeps_nil
  exact (bounded_recordValue hkeeps _ {} ⟨trivial, trivial⟩).bind fun p hp =>
    .pure ⟨of_mem_ofList (hp.1.getD (by nofun)),
      of_mem_ofList (hp.2.getD (by nofun))⟩

theorem bounded_document : Bounded n Graph.Countable document := by
  refine (bounded_graphValue hn).bind fun g hg =>
    shrinks_peekSolid.then fun octet => ?_
  cases octet with
  | none => exact .pure hg
  | some b => exact bounded_throw _

end Graphs

/-- The lengths in a document that can be counted itself can be counted. -/
theorem countable_of_decode {octets : List UInt8} {g : Graph}
    (h : decode octets = .ok g) (hoctets : octets.length < 2 ^ 64) :
    g.Countable := by
  unfold decode at h
  cases hrun : document.run octets with
  | error e =>
      rw [hrun] at h
      cases h
  | ok p =>
      rw [hrun] at h
      cases h
      exact (bounded_document hoctets octets p.1 p.2 (Nat.le_refl _) hrun).2

end SymbolGraph.Json
