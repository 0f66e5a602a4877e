import HostDrive.Proofs.Drive.Snapshots

/-!
# Interleaved Searches

Searches of different slots, with their blocks and texts in different places of memory, do not
notice each other: each gets the answers that it would get if it were alone.

## Architecture

- `Client` is a search as the guest keeps it, `Move` one call that it makes.
- `Alike` relates two states that one client cannot tell apart: the same base, the same snapshot in
  its slot, and the same block in memory.
- `Alike.own`: a move of the client gets the same answer in both and leaves them alike.
- `Alike.other`: a move of another client keeps a state alike to what it was.
- A run and the run without the moves of the others stay alike, move by move.
-/

namespace HostDrive

/-! ## Section 1: Clients and moves -/

/-- **A search as the guest keeps it**: where its block and its text are, what the text says, and
    the serial number. The text, with its zero byte, lies outside the block. -/
structure Client where
  block : UInt16
  textAt : UInt16
  text : List UInt8
  serial : UInt16
  outside : ∀ x, Guest.Within block InfoBlock.length x →
    ¬ Guest.Within textAt (text ++ [0]).length x
  deriving DecidableEq

namespace Client

/-- An address is in the block or the text of a client. -/
def Owns (c : Client) (x : UInt16) : Prop :=
  Guest.Within c.block InfoBlock.length x ∨ Guest.Within c.textAt (c.text ++ [0]).length x

/-- Two clients with different slots and no memory in common. -/
def Apart (c e : Client) : Prop :=
  SearchTable.slotOf c.serial ≠ SearchTable.slotOf e.serial ∧ ∀ x, c.Owns x → ¬ e.Owns x

/-- The guest before the client starts its search: text and serial number are in memory, and the
    index registers point at text and block. -/
def start (c : Client) (g : FlatGuest) : FlatGuest :=
  let g := Guest.store g c.textAt (c.text ++ [0])
  let g := Guest.store g (c.block + 28) (Bytes.ofNat 2 c.serial.toNat)
  { g with registers := { g.registers with ix := c.block, iy := c.textAt } }

/-- The guest before the client goes on with its search. -/
def resume (c : Client) (g : FlatGuest) : FlatGuest :=
  { g with registers := { g.registers with ix := c.block } }

end Client

/-- **A move**: the guest does something of its own, and then a client makes a call. -/
structure Move where
  client : Client
  /-- Whether the call starts the search or goes on with it. -/
  starts : Bool
  host : Host
  before : FlatGuest → FlatGuest

namespace Move

/-- What the guest does of its own leaves the block of a client alone. -/
def Spares (m : Move) (c : Client) : Prop :=
  ∀ g x, Guest.Within c.block InfoBlock.length x → (m.before g).peek x = g.peek x

/-- The call that a move makes. -/
def visit (m : Move) (g : FlatGuest) : Visit FlatGuest :=
  if m.starts then ⟨m.host, .findFirst, m.client.start (m.before g)⟩
  else ⟨m.host, .findNext, m.client.resume (m.before g)⟩

/-- Drive, status and guest after a move. -/
def outcome (m : Move) (s : Drive × FlatGuest) : Drive × Status × FlatGuest :=
  s.1.visit (m.visit s.2)

/-- Drive and guest after a move. -/
def run (m : Move) (s : Drive × FlatGuest) : Drive × FlatGuest :=
  ((m.outcome s).1, (m.outcome s).2.2)

/-- What a client gets from its move: the status and the block. -/
def result (m : Move) (s : Drive × FlatGuest) : Status × InfoBlock :=
  ((m.outcome s).2.1, Drive.blockAt (m.outcome s).2.2.peek m.client.block)

end Move

/-- What one client gets in a run of moves, in order. -/
def results (c : Client) : Drive × FlatGuest → List Move → List (Status × InfoBlock)
  | _, [] => []
  | s, m :: moves =>
    if m.client = c then m.result s :: results c (m.run s) moves else results c (m.run s) moves

/-! ## Section 2: What a call reads -/

/-- The block after a reply that hands over an entry, or finds none. -/
theorem blockAt_deliver_present (d : Drive) (v : Visit FlatGuest) (index : UInt16) :
    Drive.blockAt ((d.present v.address v.block index).deliver v.guest).peek v.address =
      match d.searches.entry? v.block.serial index.toNat with
      | some e => v.block.present e index
      | none => v.block := by
  rw [Drive.present_eq]
  cases d.searches.entry? v.block.serial index.toNat with
  | none => rfl
  | some e =>
    refine FlatGuest.blockAt_deliver_store v.guest v.address _ ?_
    rw [InfoBlock.length_present v.isFull_block, v.length_block]

/-- The serial number stays in the block, whatever is handed over. -/
theorem serial_deliver_present (d : Drive) (v : Visit FlatGuest) (index : UInt16) :
    (Drive.blockAt ((d.present v.address v.block index).deliver v.guest).peek v.address).serial =
      v.block.serial := by
  rw [blockAt_deliver_present]
  cases d.searches.entry? v.block.serial index.toNat with
  | none => rfl
  | some e => exact InfoBlock.serial_present v.isFull_block e index

theorem peek_deliver_present (d : Drive) (v : Visit FlatGuest) (index : UInt16) {x : UInt16}
    (hx : ¬ Guest.Within v.address InfoBlock.length x) :
    ((d.present v.address v.block index).deliver v.guest).peek x = v.guest.peek x := by
  rw [Drive.present_eq, FlatGuest.peek_deliver]
  cases d.searches.entry? v.block.serial index.toNat with
  | none => rfl
  | some e =>
    refine FlatGuest.peek_store_of_not_within ?_
    rw [InfoBlock.length_present v.isFull_block, v.length_block]
    exact hx

/-- **Same answer**: two calls give their client the same status and the same block, with its serial
    number still in it, and leave the same snapshot in its slot. -/
structure SameAnswer (address serial : UInt16) (o o' : Drive × Status × FlatGuest) : Prop where
  status : o.2.1 = o'.2.1
  block : Drive.blockAt o.2.2.peek address = Drive.blockAt o'.2.2.peek address
  slot : o.1.searches.get? serial = o'.1.searches.get? serial
  serial_eq : (Drive.blockAt o.2.2.peek address).serial = serial

namespace SameAnswer

variable {d d' : Drive} {v v' : Visit FlatGuest} {address serial : UInt16}

/-- Handing over depends on the block and the snapshot in its slot. -/
theorem present (haddress : v.address = address) (haddress' : v'.address = address)
    (hblock : v.block = v'.block) (hserial : v.block.serial = serial)
    (hslot : d.searches.get? serial = d'.searches.get? serial) (index : UInt16) :
    SameAnswer address serial
      (d, (d.present v.address v.block index).status,
        (d.present v.address v.block index).deliver v.guest)
      (d', (d'.present v'.address v'.block index).status,
        (d'.present v'.address v'.block index).deliver v'.guest) := by
  subst haddress hserial
  have hreply : d.present v.address v.block index = d'.present v'.address v'.block index := by
    simp only [Drive.present_eq, SearchTable.entry?_eq, haddress', ← hblock, hslot]
  have hafter : Drive.blockAt ((d.present v.address v.block index).deliver v.guest).peek v.address =
      Drive.blockAt ((d'.present v'.address v'.block index).deliver v'.guest).peek v.address := by
    have hafter' := blockAt_deliver_present d' v' index
    rw [haddress'] at hafter' ⊢
    rw [blockAt_deliver_present, hafter']
    simp only [SearchTable.entry?_eq, ← hblock, hslot]
  exact ⟨congrArg Reply.status hreply, hafter, hslot, serial_deliver_present d v index⟩

/-- Two find-firsts with the same host, base, text and block get the same answer. -/
theorem findFirst (hentry : v.entry = .findFirst) (hentry' : v'.entry = .findFirst)
    (hhost : v.host = v'.host) (hbase : d.base = d'.base) (hsearch : v.search = v'.search)
    (haddress : v.address = address) (haddress' : v'.address = address)
    (hblock : v.block = v'.block) (hserial : v.block.serial = serial)
    (hslot : d.searches.get? serial = d'.searches.get? serial) :
    SameAnswer address serial (d.visit v) (d'.visit v') := by
  have hlookUp : d.lookUp v.host v.search = d'.lookUp v'.host v'.search := by
    simp only [Drive.lookUp, hhost, hbase, hsearch]
  rw [Drive.visit_findFirst hentry, Drive.visit_findFirst hentry', hlookUp, hsearch]
  cases d'.lookUp v'.host v'.search with
  | none =>
    -- no directory for either, and neither block changes
    subst haddress hserial
    have hblock' : v.block = Drive.blockAt v'.guest.peek v.address := by
      rw [hblock, ← haddress']
      rfl
    exact ⟨rfl, hblock', hslot, rfl⟩
  | some listing =>
    refine present haddress haddress' hblock hserial ?_ 0
    simp only [SearchTable.get?_insert, ← hblock, hslot]

/-- Two find-nexts with the same block and the same snapshot get the same answer. -/
theorem findNext (hentry : v.entry = .findNext) (hentry' : v'.entry = .findNext)
    (haddress : v.address = address) (haddress' : v'.address = address)
    (hblock : v.block = v'.block) (hserial : v.block.serial = serial)
    (hslot : d.searches.get? serial = d'.searches.get? serial) :
    SameAnswer address serial (d.visit v) (d'.visit v') := by
  rw [Drive.visit_findNext hentry, Drive.visit_findNext hentry', ← hblock]
  cases Drive.nextIndex? v.block.index with
  | none =>
    subst haddress hserial
    have hblock' : v.block = Drive.blockAt v'.guest.peek v.address := by
      rw [hblock, ← haddress']
      rfl
    exact ⟨rfl, hblock', hslot, rfl⟩
  | some index =>
    have hpresent := present haddress haddress' hblock hserial hslot index
    rw [← hblock] at hpresent
    exact hpresent

end SameAnswer

theorem peek_visit_search {d : Drive} {v : Visit FlatGuest}
    (hentry : v.entry = .findFirst ∨ v.entry = .findNext) {x : UInt16}
    (hx : ¬ Guest.Within v.address InfoBlock.length x) :
    (d.visit v).2.2.peek x = v.guest.peek x := by
  rcases hentry with hfirst | hnext
  · rw [Drive.visit_findFirst hfirst]
    cases d.lookUp v.host v.search with
    | none => exact congrFun (FlatGuest.peek_deliver .noDirectory v.guest) x
    | some listing => exact peek_deliver_present _ v 0 hx
  · rw [Drive.visit_findNext hnext]
    cases Drive.nextIndex? v.block.index with
    | none => exact congrFun (FlatGuest.peek_deliver .noFile v.guest) x
    | some index => exact peek_deliver_present d v index hx

/-! ## Section 3: What a client prepares -/

namespace Client

theorem within_block_of_serial {c : Client} {x : UInt16}
    (h : Guest.Within (c.block + 28) (Bytes.ofNat 2 c.serial.toNat).length x) :
    Guest.Within c.block InfoBlock.length x := by
  rw [Bytes.length_ofNat] at h
  exact @Guest.Within.of_inner c.block 28 2 InfoBlock.length x h (by decide)

/-- A text that leaves room for the block fits into memory. -/
theorem length_text_le (c : Client) : (c.text ++ [0]).length ≤ memorySize := by
  have hblock : Guest.Within c.block InfoBlock.length c.block := by
    rw [Guest.Within, UInt16.sub_self]
    decide
  exact Nat.le_trans (Nat.le_of_not_lt (c.outside _ hblock)) (Nat.le_of_lt (UInt16.toNat_lt _))

/-- Starting a search leaves memory alone that the client does not own. -/
theorem peek_start_of_not_owns {c : Client} {g : FlatGuest} {x : UInt16} (hx : ¬ c.Owns x) :
    (c.start g).peek x = g.peek x := by
  show (Guest.store (Guest.store g c.textAt (c.text ++ [0])) (c.block + 28)
    (Bytes.ofNat 2 c.serial.toNat)).peek x = _
  rw [FlatGuest.peek_store_of_not_within fun h => hx (.inl (within_block_of_serial h)),
    FlatGuest.peek_store_of_not_within fun h => hx (.inr h)]

theorem peek_start_congr {c : Client} {g g' : FlatGuest} {x : UInt16} (h : g.peek x = g'.peek x) :
    (c.start g).peek x = (c.start g').peek x :=
  FlatGuest.peek_store_congr (.inl (FlatGuest.peek_store_congr (.inl h)))

/-- The search text of a started search is the text of its client. -/
theorem readPlain_start (c : Client) (g : FlatGuest) (limit : Nat) :
    Guest.readPlain (c.start g).peek c.textAt limit =
      ((c.text.takeWhile (· != 0)).take limit).map Text.plainByte := by
  apply Guest.readPlain_eq
  intro i hi
  have hin : Guest.Within c.textAt (c.text ++ [0]).length (c.textAt + UInt16.ofNat i) :=
    Guest.within_add_ofNat hi
  show (Guest.store (Guest.store g c.textAt (c.text ++ [0])) (c.block + 28)
    (Bytes.ofNat 2 c.serial.toNat)).peek _ = _
  rw [FlatGuest.peek_store_of_not_within fun h => c.outside _ (within_block_of_serial h) hin,
    FlatGuest.peek_store_add g c.textAt _ c.length_text_le i hi]

theorem serial_start (c : Client) (g : FlatGuest) :
    (Drive.blockAt (c.start g).peek c.block).serial = c.serial := by
  have hbytes : (Drive.blockAt (c.start g).peek c.block).bytesOf .serial =
      Bytes.ofNat 2 c.serial.toNat := by
    have hstored := FlatGuest.readBlock_store (Guest.store g c.textAt (c.text ++ [0]))
      (c.block + 28) (Bytes.ofNat 2 c.serial.toNat) (by rw [Bytes.length_ofNat]; decide)
    rw [Bytes.length_ofNat] at hstored
    rw [Drive.bytesOf_blockAt]
    exact hstored
  rw [InfoBlock.serial_eq, hbytes, Bytes.ofNat_toNat_ofNat]

end Client

/-! ## Section 4: States that a client cannot tell apart -/

/-- **Alike for a client**: both drives have the same base and the same snapshot in its slot, and
    both guests have the same bytes in its block. -/
structure Alike (c : Client) (s s' : Drive × FlatGuest) : Prop where
  base : s.1.base = s'.1.base
  slot : s.1.searches.get? c.serial = s'.1.searches.get? c.serial
  bytes : ∀ x, Guest.Within c.block InfoBlock.length x → s.2.peek x = s'.2.peek x

/-- The block of a client has its serial number. -/
def Client.Numbered (c : Client) (g : FlatGuest) : Prop :=
  (Drive.blockAt g.peek c.block).serial = c.serial

theorem blockAt_congr {g g' : FlatGuest} {address : UInt16}
    (h : ∀ x, Guest.Within address InfoBlock.length x → g.peek x = g'.peek x) :
    Drive.blockAt g.peek address = Drive.blockAt g'.peek address :=
  congrArg InfoBlock.mk (Guest.readBlock_congr h)

theorem peek_eq_of_blockAt_eq {g g' : FlatGuest} {address : UInt16}
    (h : Drive.blockAt g.peek address = Drive.blockAt g'.peek address) (x : UInt16)
    (hx : Guest.Within address InfoBlock.length x) : g.peek x = g'.peek x :=
  Guest.eq_of_readBlock_eq (congrArg InfoBlock.bytes h) x hx

namespace Alike

variable {c : Client} {s s' : Drive × FlatGuest} {m : Move}

/-- **Its own move**: the client gets the same from alike states, and they stay alike. A find-next
    needs the serial number in the block; after either call it is there. -/
theorem own (h : Alike c s s') (hclient : m.client = c) (hspares : m.Spares c)
    (hnumbered : m.starts = true ∨ c.Numbered s.2) :
    m.result s = m.result s' ∧ Alike c (m.run s) (m.run s') ∧ c.Numbered (m.run s).2 := by
  subst hclient
  -- what the guest does before the call keeps the bytes of the block alike
  have hbefore : ∀ x, Guest.Within m.client.block InfoBlock.length x →
      (m.before s.2).peek x = (m.before s'.2).peek x := by
    intro x hx
    rw [hspares _ x hx, hspares _ x hx, h.bytes x hx]
  have hanswer : SameAnswer m.client.block m.client.serial (m.outcome s) (m.outcome s') := by
    unfold Move.outcome Move.visit
    cases hstarts : m.starts with
    | true =>
      -- the search text comes from the client, the rest of the block from the guests
      have hblock : Drive.blockAt (m.client.start (m.before s.2)).peek m.client.block =
          Drive.blockAt (m.client.start (m.before s'.2)).peek m.client.block :=
        blockAt_congr fun x hx => Client.peek_start_congr (hbefore x hx)
      have htext : ∀ g, Guest.readText (m.client.start g).peek m.client.textAt longestGuestPath =
          Text.latin1 (((m.client.text.takeWhile (· != 0)).take longestGuestPath).map
            Text.plainByte) :=
        fun g => congrArg Text.latin1 (m.client.readPlain_start g _)
      have hsearch := congrArg GuestPath.searchPath
        ((htext (m.before s.2)).trans (htext (m.before s'.2)).symm)
      exact .findFirst rfl rfl rfl h.base hsearch rfl rfl hblock (m.client.serial_start _) h.slot
    | false =>
      -- the serial number is still the one of the client, from its first move or from the start
      have hserial : (Drive.blockAt (m.before s.2).peek m.client.block).serial =
          m.client.serial := by
        rw [blockAt_congr fun x hx => hspares s.2 x hx]
        exact hnumbered.resolve_left (by simp [hstarts])
      exact .findNext rfl rfl rfl rfl (blockAt_congr hbefore) hserial h.slot
  refine ⟨Prod.ext hanswer.status hanswer.block,
    ⟨?_, hanswer.slot, peek_eq_of_blockAt_eq hanswer.block⟩, hanswer.serial_eq⟩
  show (s.1.visit _).1.base = (s'.1.visit _).1.base
  rw [(Drive.base_visit _ _).1, (Drive.base_visit _ _).1, h.base]

/-- **Another's move**: it keeps a state alike to what it was, if the two have nothing in common,
    and the block as it was. -/
theorem other (h : Alike c s s') (hapart : c.Apart m.client) (hspares : m.Spares c) :
    Alike c (m.run s) s' ∧
      Drive.blockAt (m.run s).2.peek c.block = Drive.blockAt s.2.peek c.block := by
  obtain ⟨hslots, hmemory⟩ := hapart
  have hown : ∀ {x}, Guest.Within c.block InfoBlock.length x → ¬ m.client.Owns x :=
    fun hx => hmemory _ (.inl hx)
  have hentry : (m.visit s.2).entry = .findFirst ∨ (m.visit s.2).entry = .findNext := by
    unfold Move.visit
    cases m.starts
    · exact .inr rfl
    · exact .inl rfl
  have haddress : (m.visit s.2).address = m.client.block := by
    unfold Move.visit
    cases m.starts <;> rfl
  have hbytes : ∀ x, Guest.Within c.block InfoBlock.length x →
      (m.run s).2.peek x = s.2.peek x := by
    intro x hx
    have hprepared : (m.visit s.2).guest.peek x = (m.before s.2).peek x := by
      unfold Move.visit
      cases m.starts
      · rfl
      · exact Client.peek_start_of_not_owns (hown hx)
    have houtside : ¬ Guest.Within (m.visit s.2).address InfoBlock.length x := by
      rw [haddress]
      exact fun hin => hown hx (.inl hin)
    show (s.1.visit (m.visit s.2)).2.2.peek x = _
    rw [peek_visit_search hentry houtside, hprepared, hspares _ x hx]
  have hslot : (m.run s).1.searches.get? c.serial = s.1.searches.get? c.serial := by
    refine Drive.get?_visit_of_apart fun hfirst => ?_
    have hserial : (m.visit s.2).block.serial = m.client.serial := by
      revert hfirst
      unfold Move.visit
      cases m.starts
      · exact fun hfirst => nomatch hfirst
      · exact fun _ => m.client.serial_start _
    rw [hserial]
    exact hslots.symm
  have hbase : (m.run s).1.base = s.1.base := (Drive.base_visit _ _).1
  exact ⟨⟨hbase.trans h.base, hslot.trans h.slot, fun x hx => (hbytes x hx).trans (h.bytes x hx)⟩,
    blockAt_congr hbytes⟩

end Alike

/-! ## Section 5: Runs -/

/-- The first move of a client starts its search. -/
def Client.Opens (c : Client) (moves : List Move) : Prop :=
  ∀ m, moves.find? (·.client = c) = some m → m.starts = true

/-- A client gets the same from a run and from the run without the moves of others, started in
    states that it cannot tell apart. -/
theorem results_filter_of_alike {c : Client} {s s' : Drive × FlatGuest} {moves : List Move}
    (h : Alike c s s') (hopens : c.Numbered s.2 ∨ c.Opens moves)
    (hapart : ∀ m ∈ moves, m.client ≠ c → c.Apart m.client) (hspares : ∀ m ∈ moves, m.Spares c) :
    results c s moves = results c s' (moves.filter (·.client = c)) := by
  -- on the moves, for any two states that are alike
  induction moves generalizing s s' with
  | nil => rfl
  | cons m moves ih =>
    have hapart' := fun m' hm' => hapart m' (List.mem_cons_of_mem m hm')
    have hspares' := fun m' hm' => hspares m' (List.mem_cons_of_mem m hm')
    by_cases hclient : m.client = c
    · have hready : m.starts = true ∨ c.Numbered s.2 := by
        rcases hopens with hnumbered | hfirst
        · exact .inr hnumbered
        · exact .inl (hfirst m (by simp [List.find?, hclient]))
      obtain ⟨hresult, halike, hnumbered⟩ :=
        h.own hclient (hspares m List.mem_cons_self) hready
      rw [List.filter_cons_of_pos (by simpa using hclient)]
      simp only [results, if_pos hclient, hresult, ih halike (.inl hnumbered) hapart' hspares']
    · obtain ⟨halike, hblock⟩ :=
        h.other (hapart m List.mem_cons_self hclient) (hspares m List.mem_cons_self)
      have hopens' : c.Numbered (m.run s).2 ∨ c.Opens moves := by
        refine hopens.imp (fun hnumbered => ?_) fun hfirst m' hm' => hfirst m' ?_
        · rw [Client.Numbered, hblock]
          exact hnumbered
        · rw [List.find?_cons_of_neg (by simpa using hclient)]
          exact hm'
      rw [List.filter_cons_of_neg (by simpa using hclient)]
      simp only [results, if_neg hclient, ih halike hopens' hapart' hspares']

/-- **Searches are a table of four snapshots, and separate ones do not disturb each other.** Every
    call of a new drive, after any history of calls, is served from the latest snapshots of that
    history. And a client that shares neither slot nor memory with the others gets, from any
    interleaving of all their moves, what it gets from its own moves alone. -/
theorem searches_interleave (base : HostPath) (label : String) :
    (∀ {γ : Type} [Guest γ] (history : List (Visit γ)) (v : Visit γ),
      Served base history ((Drive.new base label).after history) v) ∧
    ∀ (d : Drive) (g : FlatGuest) (moves : List Move) (c : Client),
      (c.Numbered g ∨ c.Opens moves) →
      (∀ m ∈ moves, m.client ≠ c → c.Apart m.client) →
      (∀ m ∈ moves, m.Spares c) →
      results c (d, g) moves = results c (d, g) (moves.filter (·.client = c)) := by
  constructor
  · intro γ _ history v
    exact served_after_new base label history v
  · intro d g moves c hopens hapart hspares
    exact results_filter_of_alike ⟨rfl, rfl, fun _ _ => rfl⟩ hopens hapart hspares

/-- A text that starts 64 bytes into a block of 64 bytes lies behind it, if both fit. -/
theorem not_within_text {block : UInt16} {text : List UInt8}
    (hblock : block.toNat + 128 ≤ memorySize) (htext : text.length < 64) :
    ∀ x, Guest.Within block InfoBlock.length x →
      ¬ Guest.Within (block + 64) (text ++ [0]).length x := by
  intro x hx hx'
  have hnext : (block + 64).toNat = block.toNat + 64 := by
    rw [UInt16.toNat_add]
    simp only [memorySize, UInt16.reduceToNat] at *
    omega
  rw [Guest.within_iff (by simp only [InfoBlock.length]; omega)] at hx
  rw [Guest.within_iff (by simp only [List.length_append, List.length_singleton]; omega)] at hx'
  simp only [InfoBlock.length] at hx
  omega

/-- A client with its text right behind its block. -/
def Client.compact (block : UInt16) (text : List UInt8) (serial : UInt16)
    (hblock : block.toNat + 128 ≤ memorySize) (htext : text.length < 64) : Client where
  block := block
  textAt := block + 64
  text := text
  serial := serial
  outside := not_within_text hblock htext

/-- A client that looks for everything. -/
def everything : Client := .compact 0x9000 [0x2A] 0 (by decide) (by decide)

/-- A client that looks for a name of one letter. -/
def oneLetter : Client := .compact 0x9080 [0x3F] 1 (by decide) (by decide)

theorem everything_apart_oneLetter : everything.Apart oneLetter := by
  refine ⟨by decide, fun x hx hx' => ?_⟩
  have hlow : x.toNat < 0x9080 := by
    rcases hx with h | h <;> rw [Guest.within_iff (by decide)] at h <;>
      exact Nat.lt_of_lt_of_le h.2 (by decide)
  have hhigh : 0x9080 ≤ x.toNat := by
    rcases hx' with h | h <;> rw [Guest.within_iff (by decide)] at h <;>
      exact Nat.le_trans (by decide) h.1
  omega

/-- Two searches in turn: the first gets both its entries as if the second were not there. -/
theorem searches_interleave_two_clients :
    let start := (Drive.new ⟨"/d"⟩ "D", FlatGuest.filled 0)
    let host := Host.uniform [.file "A" 1 {}, .file "BC" 2 {}]
    results everything start
      [⟨everything, true, host, id⟩, ⟨oneLetter, true, host, id⟩,
        ⟨everything, false, host, id⟩, ⟨oneLetter, false, host, id⟩] =
    results everything start [⟨everything, true, host, id⟩, ⟨everything, false, host, id⟩] := by
  intro start host
  refine (searches_interleave ⟨"/d"⟩ "D").2 _ _ _ everything ?opens ?apart ?spares
  case opens =>
    right
    intro m hm
    obtain rfl : ⟨everything, true, host, id⟩ = m := Option.some.inj hm
    rfl
  case apart =>
    intro m hm hne
    simp only [List.mem_cons, List.not_mem_nil, or_false] at hm
    rcases hm with rfl | rfl | rfl | rfl
    · exact absurd rfl hne
    · exact everything_apart_oneLetter
    · exact absurd rfl hne
    · exact everything_apart_oneLetter
  case spares =>
    intro m hm g x _
    simp only [List.mem_cons, List.not_mem_nil, or_false] at hm
    rcases hm with rfl | rfl | rfl | rfl <;> rfl

end HostDrive
