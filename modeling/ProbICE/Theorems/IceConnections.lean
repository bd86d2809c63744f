import ProbICE.IceChannel

/-! # What a channel does to its connections

Whatever the channel does to a connection, the connection stays between the same port and the same candidate, and the
channel hears of each change of its states. -/

namespace ProbICE.Ice
open Stun

theorem Queue.RequestSort_dirty (q : Queue) : q.RequestSort.sort_dirty = true := by
  unfold RequestSort
  split
  · rfl
  · rename_i h
    exact not_not.mp h

theorem Queue.RequestSort_deletes (q : Queue) : q.RequestSort.deletes = q.deletes := by
  unfold RequestSort
  split <;> rfl

theorem Queue.le_RequestSort_sorts (q : Queue) : q.sorts ≤ q.RequestSort.sorts := by
  unfold RequestSort
  split
  · exact Nat.le_succ _
  · exact Nat.le_refl _

theorem Queue.RequestSort_posted (q : Queue) : q.sort_dirty ∨ q.sorts < q.RequestSort.sorts := by
  unfold RequestSort
  split
  · exact Or.inr (Nat.lt_succ_self _)
  · rename_i h
    exact Or.inl (not_not.mp h)

variable [Host]

/-- What becomes of a connection and of the queue of its channel. -/
structure Evolves (c : Connection) (q : Queue) (c' : Connection) (q' : Queue) : Prop where
  key : c'.key = c.key
  port : c'.port = c.port
  remote_candidate : c'.remote_candidate = c.remote_candidate
  reported : c'.reported = c.reported
  pruned : c.pruned → c'.pruned
  dirty : q.sort_dirty → q'.sort_dirty
  sorts : q.sorts ≤ q'.sorts
  posted : q'.sort_dirty → q.sort_dirty ∨ q.sorts < q'.sorts
  changed : ¬ q'.sort_dirty → c'.read_state = c.read_state ∧ c'.write_state = c.write_state
  deletes : q.deletes ⊆ q'.deletes
  deleted : ∀ key ∈ q'.deletes, key ∈ q.deletes ∨ key = c.key
  dead : c'.IsDead → c.IsDead ∨ c.key ∈ q'.deletes

theorem Evolves.refl (c : Connection) (q : Queue) : Evolves c q c q :=
  ⟨rfl, rfl, rfl, rfl, id, id, Nat.le_refl _, Or.inl, fun _ => ⟨rfl, rfl⟩, List.Subset.refl _, fun _ => Or.inl, Or.inl⟩

theorem Evolves.trans {c c' c'' : Connection} {q q' q'' : Queue} (h : Evolves c q c' q') (h' : Evolves c' q' c'' q'') :
    Evolves c q c'' q'' where
  key := h'.key.trans h.key
  port := h'.port.trans h.port
  remote_candidate := h'.remote_candidate.trans h.remote_candidate
  reported := h'.reported.trans h.reported
  pruned hpruned := h'.pruned (h.pruned hpruned)
  dirty hdirty := h'.dirty (h.dirty hdirty)
  sorts := h.sorts.trans h'.sorts
  posted hdirty := by
    rcases h'.posted hdirty with hdirty' | hless
    · exact (h.posted hdirty').imp_right fun hless => hless.trans_le h'.sorts
    · exact Or.inr (h.sorts.trans_lt hless)
  changed hclean := by
    obtain ⟨hread', hwrite'⟩ := h'.changed hclean
    obtain ⟨hread, hwrite⟩ := h.changed fun hdirty => hclean (h'.dirty hdirty)
    exact ⟨hread'.trans hread, hwrite'.trans hwrite⟩
  deletes := List.Subset.trans h.deletes h'.deletes
  deleted key hkey := by
    rcases h'.deleted key hkey with hkey | rfl
    · exact h.deleted key hkey
    · exact Or.inr h.key
  dead hdead := by
    rcases h'.dead hdead with hdead' | hmem
    · exact (h.dead hdead').imp_right fun hmem => h'.deletes hmem
    · exact Or.inr (h.key ▸ hmem)

/-- A function on connections and queues that makes of each connection what may become of it. -/
def Evolving (f : Connection → Queue → Connection × Queue) : Prop := ∀ c q, Evolves c q (f c q).1 (f c q).2

/-- What becomes of a connection that nothing has come for: it is not found to be readable or writable, and there are no
    new requests. -/
structure Tame (c c' : Connection) : Prop where
  readable : c'.read_state = .readable → c.read_state = .readable
  writable : c'.write_state = .writable → c.write_state = .writable
  requests : ∀ request' ∈ c'.requests, ∃ request ∈ c.requests, request.id = request'.id

theorem Tame.refl (c : Connection) : Tame c c := ⟨id, id, fun request h => ⟨request, h, rfl⟩⟩

theorem Tame.trans {c c' c'' : Connection} (h : Tame c c') (h' : Tame c' c'') : Tame c c'' where
  readable := h.readable ∘ h'.readable
  writable := h.writable ∘ h'.writable
  requests request'' hrequest'' := by
    obtain ⟨request', hrequest', hid'⟩ := h'.requests request'' hrequest''
    obtain ⟨request, hrequest, hid⟩ := h.requests request' hrequest'
    exact ⟨request, hrequest, hid.trans hid'⟩

def Taming (f : Connection → Queue → Connection × Queue) : Prop := ∀ c q, Tame c (f c q).1

section
variable {f g : Connection → Queue → Connection × Queue}

theorem Taming.comp (hf : Taming f) (hg : Taming g) : Taming fun c q => g (f c q).1 (f c q).2 :=
  fun c q => (hf c q).trans (hg _ _)

theorem Taming.ite {p : Connection → Queue → Prop} [∀ c q, Decidable (p c q)] (hf : Taming f) :
    Taming fun c q => if p c q then f c q else (c, q) := by
  intro c q
  dsimp only
  split
  · exact hf c q
  · exact Tame.refl c

theorem Evolving.comp (hf : Evolving f) (hg : Evolving g) : Evolving fun c q => g (f c q).1 (f c q).2 :=
  fun c q => (hf c q).trans (hg _ _)

theorem Evolving.ite {p : Connection → Queue → Prop} [∀ c q, Decidable (p c q)] (hf : Evolving f) :
    Evolving fun c q => if p c q then f c q else (c, q) := by
  intro c q
  dsimp only
  split
  · exact hf c q
  · exact Evolves.refl c q

end

namespace Connection

theorem CheckTimeout_sort_dirty (c : Connection) (q : Queue) : (c.CheckTimeout q).sort_dirty = q.sort_dirty := by
  unfold CheckTimeout
  split <;> rfl

theorem CheckTimeout_sorts (c : Connection) (q : Queue) : (c.CheckTimeout q).sorts = q.sorts := by
  unfold CheckTimeout
  split <;> rfl

theorem mem_CheckTimeout_deletes {c : Connection} {q : Queue} {key : Nat} :
    key ∈ (c.CheckTimeout q).deletes ↔ key ∈ q.deletes ∨ c.IsDead ∧ key = c.key := by
  unfold CheckTimeout
  split
  · rename_i h
    rw [List.mem_append, List.mem_singleton]
    exact or_congr_right ⟨fun hkey => ⟨h, hkey⟩, And.right⟩
  · rename_i h
    exact ⟨Or.inl, fun hkey => hkey.resolve_right fun hdead => h hdead.1⟩

/-- A connection that differs in what the channel does not hear of. -/
theorem evolves_of_same {c c' : Connection} (q : Queue) (hkey : c'.key = c.key) (hport : c'.port = c.port)
    (hremote : c'.remote_candidate = c.remote_candidate) (hreported : c'.reported = c.reported)
    (hpruned : c.pruned → c'.pruned) (hread : c'.read_state = c.read_state) (hwrite : c'.write_state = c.write_state) :
    Evolves c q c' q :=
  ⟨hkey, hport, hremote, hreported, hpruned, id, Nat.le_refl _, Or.inl, fun _ => ⟨hread, hwrite⟩, List.Subset.refl _,
    fun _ => Or.inl, fun hdead => Or.inl (by rwa [IsDead, hread, hwrite] at hdead)⟩

/-- A connection whose states have changed, and that has told the channel so. -/
theorem evolves_of_told {c c' : Connection} (q : Queue) (hkey : c'.key = c.key) (hport : c'.port = c.port)
    (hremote : c'.remote_candidate = c.remote_candidate) (hreported : c'.reported = c.reported)
    (hpruned : c.pruned → c'.pruned) : Evolves c q c' (c'.CheckTimeout q.RequestSort) where
  key := hkey
  port := hport
  remote_candidate := hremote
  reported := hreported
  pruned := hpruned
  dirty _ := by rw [CheckTimeout_sort_dirty, Queue.RequestSort_dirty]
  sorts := by
    rw [CheckTimeout_sorts]
    exact q.le_RequestSort_sorts
  posted _ := by
    rw [CheckTimeout_sorts]
    exact q.RequestSort_posted
  changed hclean := by
    rw [CheckTimeout_sort_dirty, Queue.RequestSort_dirty] at hclean
    exact absurd rfl hclean
  deletes key hmem := mem_CheckTimeout_deletes.mpr (Or.inl (by rwa [Queue.RequestSort_deletes]))
  deleted key hmem := by
    rcases mem_CheckTimeout_deletes.mp hmem with hmem | ⟨-, rfl⟩
    · exact Or.inl (by rwa [Queue.RequestSort_deletes] at hmem)
    · exact Or.inr hkey
  dead hdead := Or.inr (mem_CheckTimeout_deletes.mpr (Or.inr ⟨hdead, hkey.symm⟩))

theorem evolving_set_read_state (value : ReadState) : Evolving (set_read_state value) := by
  intro c q
  unfold set_read_state
  dsimp only
  split
  · exact evolves_of_told q rfl rfl rfl rfl id
  · rename_i h
    exact evolves_of_same q rfl rfl rfl rfl id (not_not.mp h) rfl

theorem evolving_set_write_state (value : WriteState) : Evolving (set_write_state value) := by
  intro c q
  unfold set_write_state
  dsimp only
  split
  · exact evolves_of_told q rfl rfl rfl rfl id
  · rename_i h
    exact evolves_of_same q rfl rfl rfl rfl id rfl (not_not.mp h)

theorem evolving_ReceivedPing (now : UInt32) : Evolving (ReceivedPing now) := by
  intro c q
  have hsame : Evolves c q { c with last_ping_received := now } q := evolves_of_same q rfl rfl rfl rfl id rfl rfl
  exact hsame.trans (evolving_set_read_state .readable _ q)

theorem evolving_startAgain : Evolving startAgain := (evolving_set_write_state .writeConnect).ite

theorem evolving_Prune : Evolving Prune := by
  intro c q
  unfold Prune
  split
  · have hsame : Evolves c q { c with pruned := true, requests := [] } q :=
      evolves_of_same q rfl rfl rfl rfl (fun _ => rfl) rfl rfl
    exact hsame.trans (evolving_set_write_state .writeTimeout _ q)
  · exact Evolves.refl c q

theorem evolving_checkReadable (now : UInt32) : Evolving (checkReadable now) := (evolving_set_read_state .readTimeout).ite

theorem evolving_checkWritable (now : UInt32) : Evolving (checkWritable now) := (evolving_set_write_state .writeConnect).ite

theorem evolving_checkConnecting (now : UInt32) : Evolving (checkConnecting now) :=
  (evolving_set_write_state .writeTimeout).ite

theorem evolving_UpdateState (now : UInt32) : Evolving (UpdateState now) :=
  ((evolving_checkReadable now).comp (evolving_checkWritable now)).comp (evolving_checkConnecting now)

theorem evolving_Remove (id_ : CString) : Evolving fun c q => (c.Remove id_, q) := fun _ q =>
  evolves_of_same q rfl rfl rfl rfl id rfl rfl

theorem evolving_Ping (id_ : CString) (now : UInt32) : Evolving (Ping id_ now) := fun _ q =>
  evolves_of_same q rfl rfl rfl rfl id rfl rfl

theorem evolving_OnConnectionRequestResponse (request : ConnectionRequest) (now : UInt32) :
    Evolving (OnConnectionRequestResponse request now) := fun c q =>
  (evolving_set_write_state .writable c q).trans (evolves_of_same _ rfl rfl rfl rfl id rfl rfl)

theorem evolving_OnConnectionRequestErrorResponse (response : StunMessage) :
    Evolving (OnConnectionRequestErrorResponse response) := by
  intro c q
  unfold OnConnectionRequestErrorResponse
  dsimp only
  split_ifs
  · exact Evolves.refl c q
  · exact Evolves.refl c q
  · exact evolving_set_write_state .writeTimeout c q

theorem evolving_CheckResponse (msg : StunMessage) (now : UInt32) : Evolving (CheckResponse msg now) := by
  intro c q
  unfold CheckResponse
  split
  · exact Evolves.refl c q
  split_ifs
  · exact (evolving_OnConnectionRequestResponse _ now).comp (evolving_Remove msg.transaction_id) c q
  · exact (evolving_OnConnectionRequestErrorResponse msg).comp (evolving_Remove msg.transaction_id) c q
  · exact Evolves.refl c q

theorem evolving_OnStunSend (id_ : CString) (now : UInt32) : Evolving fun c q => (c.OnStunSend id_ now, q) := by
  intro c q
  dsimp only
  unfold OnStunSend
  split
  · exact Evolves.refl c q
  split
  · exact evolves_of_same q rfl rfl rfl rfl id rfl rfl
  · exact evolves_of_same q rfl rfl rfl rfl id rfl rfl

/-! ### Tame functions -/

theorem set_read_state_eq (value : ReadState) (c : Connection) (q : Queue) :
    (c.set_read_state value q).1 = { c with read_state := value } := by
  unfold set_read_state
  dsimp only
  split <;> rfl

theorem set_write_state_eq (value : WriteState) (c : Connection) (q : Queue) :
    (c.set_write_state value q).1 = { c with write_state := value } := by
  unfold set_write_state
  dsimp only
  split <;> rfl

theorem taming_readTimeout : Taming (set_read_state .readTimeout) := by
  intro c q
  rw [set_read_state_eq]
  exact ⟨nofun, id, (Tame.refl c).requests⟩

theorem taming_set_write_state {value : WriteState} (h : value ≠ .writable) : Taming (set_write_state value) := by
  intro c q
  rw [set_write_state_eq]
  exact ⟨id, fun hvalue => absurd hvalue h, (Tame.refl c).requests⟩

theorem taming_writeConnect : Taming (set_write_state .writeConnect) := taming_set_write_state nofun

theorem taming_writeTimeout : Taming (set_write_state .writeTimeout) := taming_set_write_state nofun

theorem taming_startAgain : Taming startAgain := taming_writeConnect.ite

theorem taming_Prune : Taming Prune := by
  intro c q
  unfold Prune
  split
  · have hcleared : Tame c { c with pruned := true, requests := [] } := ⟨id, id, nofun⟩
    exact hcleared.trans (taming_writeTimeout _ q)
  · exact Tame.refl c

theorem taming_UpdateState (now : UInt32) : Taming (UpdateState now) := by
  have hreadable : Taming (checkReadable now) := taming_readTimeout.ite
  have hwritable : Taming (checkWritable now) := taming_writeConnect.ite
  have hconnecting : Taming (checkConnecting now) := taming_writeTimeout.ite
  exact (hreadable.comp hwritable).comp hconnecting

theorem tame_Remove (c : Connection) (id_ : CString) : Tame c (c.Remove id_) :=
  ⟨id, id, fun request h => ⟨request, (List.mem_filter.mp h).1, rfl⟩⟩

theorem taming_OnConnectionRequestErrorResponse (response : StunMessage) :
    Taming (OnConnectionRequestErrorResponse response) := by
  intro c q
  unfold OnConnectionRequestErrorResponse
  dsimp only
  split_ifs
  · exact Tame.refl c
  · exact Tame.refl c
  · exact taming_writeTimeout c q

theorem taming_OnStunSend (id_ : CString) (now : UInt32) : Taming fun c q => (c.OnStunSend id_ now, q) := by
  intro c q
  dsimp only
  unfold OnStunSend
  split
  · exact Tame.refl c
  split
  · exact tame_Remove c id_
  · refine ⟨id, id, fun request' hrequest' => ?_⟩
    obtain ⟨request, hrequest, rfl⟩ := List.mem_map.mp hrequest'
    refine ⟨request, hrequest, ?_⟩
    split <;> rfl

end Connection

end ProbICE.Ice
