/-
A binary file that ends too early, and one that goes on too long. A reader
that does not run out of octets does not notice what follows: it comes to
the same end, and what follows is left over (`Steady`). So if a reader takes
all of some octets, it cannot make do with fewer of them: whatever else it
came to, it would have come to with all of them too. All that is left is that
it runs out (`Steady.runs_out`), and where the cut falls in a record, in a
text or in a count, need never be asked.
-/
import SymbolGraph.Proofs.Codec.Binary

namespace SymbolGraph.Binary

variable {α β : Type} {r : Reader α} {octets : List UInt8} {a : α}

-- ============================================================= readers

/-- Unless the octets run out, more of them change nothing about what the
reader comes to. They are left over, behind what is left anyway. -/
def Steady (r : Reader α) : Prop :=
  ∀ input more, r.run input = .error .endOfData
    ∨ r.run (input ++ more) = (r.run input).map fun p => (p.1, p.2 ++ more)

theorem Steady.pure (a : α) : Steady (pure a) := fun _ _ => .inr rfl

theorem Steady.throw (fault : Fault) : Steady (throw fault : Reader α) :=
  fun _ _ => .inr rfl

theorem Steady.bind {f : α → Reader β} (h : Steady r)
    (h' : ∀ a, Steady (f a)) : Steady (r >>= f) := by
  intro input more
  rw [StateT.run_bind, StateT.run_bind]
  rcases h input more with hend | hmore
  · rw [hend]
    exact .inl rfl
  · rw [hmore]
    cases r.run input with
    | error fault => exact .inr rfl
    | ok p => exact h' p.1 p.2 more

/-- Of octets that it takes all of, a reader makes do with no fewer. -/
theorem Steady.runs_out (h : Steady r) (htakes : Takes r octets a) {n : Nat}
    (hn : n < octets.length) :
    r.run (octets.take n) = .error .endOfData := by
  rcases h (octets.take n) (octets.drop n) with hend | hmore
  · exact hend
  · have hall := htakes []
    rw [List.append_nil] at hall
    rw [List.take_append_drop, hall] at hmore
    cases hcut : r.run (octets.take n) with
    | error fault =>
        rw [hcut] at hmore
        cases hmore
    | ok p =>
        rw [hcut] at hmore
        -- with all octets nothing is left, but the rest of them would be
        have hleft : [] = p.2 ++ octets.drop n :=
          congrArg Prod.snd (Except.ok.inj hmore)
        have hdrop := (List.append_eq_nil_iff.1 hleft.symm).2
        have := List.drop_eq_nil_iff.1 hdrop
        omega

-- ============================================================== values

theorem split?_append_some {n : Nat} {input more : List UInt8}
    {p : List UInt8 × List UInt8} (h : split? n input = some p) :
    split? n (input ++ more) = some (p.1, p.2 ++ more) := by
  induction n generalizing input p with
  | zero =>
      cases h
      rfl
  | succ n ih =>
      cases input with
      | nil => cases h
      | cons b input =>
          obtain ⟨q, hq, rfl⟩ := Option.map_eq_some_iff.1 h
          show (split? n (input ++ more)).map _ = _
          rw [ih hq]
          rfl

theorem steady_octets (n : Nat) : Steady (getOctets n) := by
  intro input more
  show getOctets n input = _
    ∨ getOctets n (input ++ more) = (getOctets n input).map _
  unfold getOctets
  cases hsplit : split? n input with
  | none => exact .inl rfl
  | some p =>
      rw [split?_append_some hsplit]
      exact .inr rfl

theorem steady_nat (width : Nat) : Steady (getNat width) :=
  (steady_octets width).bind fun _ => .pure _

theorem steady_u8 : Steady getU8 := (steady_nat 1).bind fun _ => .pure _

theorem steady_u32 : Steady getU32 := (steady_nat 4).bind fun _ => .pure _

theorem steady_u64 : Steady getU64 := (steady_nat 8).bind fun _ => .pure _

theorem steady_i32 : Steady getI32 := steady_u32.bind fun _ => .pure _

theorem steady_bool : Steady getBool := by
  refine steady_u8.bind fun b => ?_
  split
  · exact .pure _
  · split
    · exact .pure _
    · exact .throw _

theorem steady_text : Steady getText := by
  refine (steady_nat 8).bind fun n => (steady_octets n).bind fun octets => ?_
  cases Utf8.decode octets with
  | ok s => exact .pure s
  | error fault => exact .throw _

theorem steady_many {item : Reader α} (h : Steady item) (n : Nat) :
    Steady (getMany item n) := by
  induction n with
  | zero => exact .pure []
  | succ n ih => exact h.bind fun _ => ih.bind fun _ => .pure _

theorem steady_list {item : Reader α} (h : Steady item) :
    Steady (getList item) :=
  (steady_nat 8).bind fun n => steady_many h n

-- ============================================================= records

theorem steady_field : Steady getField :=
  steady_u32.bind fun _ => steady_text.bind fun _ => steady_u32.bind fun _ =>
    steady_i32.bind fun _ => steady_bool.bind fun _ => steady_u32.bind
      fun _ => .pure _

theorem steady_type : Steady getType :=
  steady_u32.bind fun _ => steady_text.bind fun _ => steady_u8.bind fun _ =>
    steady_u64.bind fun _ => steady_u32.bind fun _ =>
      (steady_list steady_field).bind fun _ => steady_u32.bind
        fun _ => .pure _

theorem steady_function : Steady getFunction :=
  steady_u32.bind fun _ => steady_text.bind fun _ => steady_u32.bind fun _ =>
    steady_u32.bind fun _ => (steady_list steady_u32).bind fun _ =>
      steady_u8.bind fun _ => steady_u64.bind fun _ => .pure _

theorem steady_header : Steady getHeader :=
  steady_u32.bind fun _ => steady_u8.bind fun _ => steady_u8.bind
    fun _ => .pure _

-- =============================================================== files

theorem length_putHeader (h : Header) : (putHeader h).length = 6 := by
  unfold putHeader putU32 putU8
  rw [List.length_append, List.length_append, LittleEndian.length_encode]
  rfl

/-- What a file of a graph is refused for that ends after `n` octets: the
part that the cut is in. -/
def cutError (g : Graph) (n : Nat) : DecodeError :=
  if n < 6 then .header .endOfData
  else if n < 6 + (putTypes g.types).length then .types .endOfData
  else .functions .endOfData

theorem message_cutError (g : Graph) (n : Nat) :
    (cutError g n).message
      = (if n < 6 then "truncated header"
        else if n < 6 + (putTypes g.types).length then
          "malformed type symbol table"
        else "malformed function symbol table")
          ++ ": io error: failed to fill whole buffer" := by
  unfold cutError
  split
  · rfl
  · split <;> rfl

/-- The file of a graph that ends early is refused for the part that the cut
is in. -/
theorem decode_take {g : Graph} (hmagic : g.header.magic = magic)
    (hcountable : g.Countable) {n : Nat} (hn : n < (encode g).length) :
    Binary.decode ((encode g).take n) = pure (.error (cutError g n)) := by
  have hheader := length_putHeader g.header
  have hparts : encode g = putHeader g.header
      ++ (putTypes g.types ++ putFunctions g.functions) :=
    List.append_assoc _ _ _
  rw [hparts, List.length_append, List.length_append, hheader] at hn
  unfold cutError
  rw [hparts, List.take_append, List.take_append, hheader]
  unfold Binary.decode
  by_cases hinHeader : n < 6
  · have hnothing : n - 6 = 0 := by omega
    rw [if_pos hinHeader, hnothing, List.take_zero, Nat.zero_sub,
      List.take_zero, List.append_nil, List.append_nil,
      steady_header.runs_out (takes_header g.header) (hheader.symm ▸ hinHeader)]
  · have hall : (putHeader g.header).take n = putHeader g.header :=
      List.take_of_length_le (by omega)
    rw [if_neg hinHeader, hall, takes_header]
    dsimp only
    rw [if_neg (not_not_intro hmagic)]
    by_cases hinTypes : n < 6 + (putTypes g.types).length
    · have hnothing : n - 6 - (putTypes g.types).length = 0 := by omega
      rw [if_pos hinTypes, hnothing, List.take_zero, List.append_nil,
        (steady_list steady_type).runs_out (takes_types hcountable.types)
          (by omega)]
    · have hall : (putTypes g.types).take (n - 6) = putTypes g.types :=
        List.take_of_length_le (by omega)
      rw [if_neg hinTypes, hall, takes_types hcountable.types]
      dsimp only
      rw [(steady_list steady_function).runs_out
        (takes_functions hcountable.functions) (by omega)]

/-- The file of a graph tells where it ends, if the graph has the magic and
lengths that can be counted, as every graph in memory has. Cut anywhere it is
refused, with a message that names the part that the cut is in, and whatever
is put behind it, it is accepted as the same graph as before. -/
theorem decode_cut_or_continued {g : Graph} (hmagic : g.header.magic = magic)
    (hcountable : g.Countable) :
    (∀ n, n < (encode g).length → ∃ error,
      (Binary.decode ((encode g).take n)).value = .error error
        ∧ error.message
          = (if n < 6 then "truncated header"
            else if n < 6 + (putTypes g.types).length then
              "malformed type symbol table"
            else "malformed function symbol table")
              ++ ": io error: failed to fill whole buffer")
      ∧ ∃ read : Graph, (Binary.decode (encode g)).value = .ok read
        ∧ ∀ more, (Binary.decode (encode g ++ more)).value = .ok read := by
  constructor
  · intro n hn
    refine ⟨cutError g n, ?_, message_cutError g n⟩
    rw [decode_take hmagic hcountable hn, Logged.value_pure]
  · refine ⟨_, congrArg Logged.value (decode_encode_of_countable hmagic
      hcountable), fun more => ?_⟩
    rw [decode_encode_append hmagic hcountable]
    cases more <;> rfl

/-- A graph with a type whose name is one character of two octets. -/
def accentGraph : Graph where
  types := .ofList [(7, {
    id := 7, name := "é", kind := .struct, length := 4, fieldCount := 1
    fields := [{ id := 8, name := "x", typeId := 7 }] })]
  functions := .ofList [(3, {
    id := 3, name := "f", returnType := 7, argumentTypes := [7] })]

/-- The cut is between the two octets. -/
theorem decode_cut_or_continued_accentGraph :
    accentGraph.header.magic = magic ∧ accentGraph.Countable
      ∧ (∃ error,
        (Binary.decode ((encode accentGraph).take 27)).value = .error error
          ∧ error.message = "malformed type symbol table: io error: "
            ++ "failed to fill whole buffer")
      ∧ ∃ read, (Binary.decode (encode accentGraph)).value = .ok read
        ∧ (Binary.decode (encode accentGraph ++ [0x55])).value = .ok read := by
  have hcountable : accentGraph.Countable := by
    constructor
    · intro t ht
      obtain rfl := List.mem_singleton.1 ht
      refine ⟨by decide +kernel, by decide, fun f hf => ?_⟩
      obtain rfl := List.mem_singleton.1 hf
      decide +kernel
    · intro f hf
      obtain rfl := List.mem_singleton.1 hf
      exact ⟨by decide +kernel, by decide⟩
  obtain ⟨hcut, read, hread, hmore⟩ :=
    decode_cut_or_continued (g := accentGraph) rfl hcountable
  obtain ⟨error, herror, hmessage⟩ := hcut 27 (by decide +kernel)
  have hinTypes : 27 < 6 + (putTypes accentGraph.types).length := by
    decide +kernel
  rw [if_neg (by decide), if_pos hinTypes] at hmessage
  exact ⟨rfl, hcountable, ⟨error, herror, hmessage⟩, read, hread, hmore _⟩

end SymbolGraph.Binary
