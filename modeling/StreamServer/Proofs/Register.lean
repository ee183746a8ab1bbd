import StreamServer.Proofs.ServerSteps

/-!
# The register

The register holds one entry for every connection that its task has not taken
off: the number of the connection, and an interrupter that has the second handle
of the same line.  Entries stand in the order in which their connections were
opened.

Numbers are used again.  That an entry is nevertheless found by its number rests
on `Register.apart`: no two open descriptors have the same number, and a
connection on the register is open, since its task takes it off before closing
it.
-/

namespace StreamServer

/-- What can be found in a list can be changed there, and the rest stays. -/
theorem exists_set_eq
    {α : Type} {l : List α} {i : Nat} {a : α}
    (there : l[i]? = some a) :
    ∃ left right,
      left.length = i ∧
      l = left ++ a :: right ∧
      ∀ b, l.set i b = left ++ b :: right := by
  obtain ⟨hi, ha⟩ := List.getElem?_eq_some_iff.mp there
  have hset : ∀ b, l.set i b = l.take i ++ b :: l.drop (i + 1) := by
    intro b
    rw [List.set_eq_take_append_cons_drop, if_pos hi]
  refine ⟨l.take i, l.drop (i + 1), ?_, ?_, hset⟩
  · rw [List.length_take]
    omega
  · rw [← hset a, ← ha, List.set_getElem_self]

/-- An entry whose key no other has is found by its key, and removing what has
its key removes it alone. -/
theorem lookup_and_filter_key
    {α : Type} {left right : List (Nat × α)} {e : Nat × α}
    (apart : ((left ++ e :: right).map Prod.fst).Nodup) :
    (left ++ e :: right).lookup e.1 = some e.2 ∧
      (left ++ e :: right).filter (fun x => x.1 ≠ e.1) =
        left ++ right := by
  rw [List.map_append, List.map_cons, List.nodup_middle,
    List.nodup_cons, List.mem_append, not_or] at apart
  obtain ⟨⟨hleft, hright⟩, -⟩ := apart
  have hother : ∀ l : List (Nat × α), e.1 ∉ l.map Prod.fst →
      ∀ x ∈ l, x.1 ≠ e.1 := by
    intro l hl x hx heq
    exact hl (List.mem_map.mpr ⟨x, hx, heq⟩)
  constructor
  · rw [List.lookup_eq_some_iff]
    refine ⟨left, right, rfl, ?_⟩
    intro x hx
    simpa using (hother left hleft x hx).symm
  · rw [List.filter_append, List.filter_cons_of_neg (by simp),
      List.filter_eq_self.mpr, List.filter_eq_self.mpr]
    · intro x hx
      simpa using hother right hright x hx
    · intro x hx
      simpa using hother left hleft x hx

namespace Duty

/-- What the register holds for a duty at a place, until it is taken off. -/
def entry (d : Duty) (i : Nat) : Nat × Interrupter :=
  (d.connection.id, ⟨⟨i, 1⟩, d.connection.id⟩)

/-- The entries of duties that are registered, the first duty having the given
place. -/
def entriesFrom (n : Nat) : List Duty → List (Nat × Interrupter)
  | [] => []
  | d :: rest =>
      if d.phase.isRegistered then
        d.entry n :: entriesFrom (n + 1) rest
      else entriesFrom (n + 1) rest

theorem entriesFrom_append
    (n : Nat) (ds es : List Duty) :
    entriesFrom n (ds ++ es) =
      entriesFrom n ds ++ entriesFrom (n + ds.length) es := by
  induction ds generalizing n with
  | nil => rfl
  | cons d rest ih =>
      have hplace : n + 1 + rest.length = n + (d :: rest).length := by
        rw [List.length_cons]
        omega
      rw [List.cons_append, entriesFrom, entriesFrom, ih, hplace]
      split <;> rfl

theorem mem_entriesFrom
    {n : Nat} {ds : List Duty} {e : Nat × Interrupter} :
    e ∈ entriesFrom n ds ↔
      ∃ i, ∃ d : Duty,
        ds[i]? = some d ∧
        d.phase.isRegistered = true ∧
        e = d.entry (n + i) := by
  induction ds generalizing n with
  | nil => simp [entriesFrom]
  | cons d rest ih =>
      have hplace : ∀ i, n + 1 + i = n + (i + 1) := by omega
      constructor
      · intro he
        have hcases :
            (d.phase.isRegistered = true ∧ e = d.entry n) ∨
              e ∈ entriesFrom (n + 1) rest := by
          rw [entriesFrom] at he
          split at he
          · next registered =>
              exact (List.mem_cons.mp he).imp_left (⟨registered, ·⟩)
          · exact Or.inr he
        rcases hcases with ⟨registered, rfl⟩ | hrest
        · exact ⟨0, d, rfl, registered, rfl⟩
        · obtain ⟨i, d', hi, registered, rfl⟩ := ih.mp hrest
          exact ⟨i + 1, d', hi, registered, by rw [hplace]⟩
      · rintro ⟨i, d', hi, registered, rfl⟩
        cases i with
        | zero =>
            obtain rfl : d = d' := by simpa using hi
            simp [entriesFrom, registered]
        | succ i =>
            have hrest : d'.entry (n + (i + 1)) ∈
                entriesFrom (n + 1) rest :=
              ih.mpr ⟨i, d', hi, registered, by rw [hplace]⟩
            rw [entriesFrom]
            split
            · exact List.mem_cons_of_mem _ hrest
            · exact hrest

theorem length_entriesFrom
    (n : Nat) (ds : List Duty) :
    (entriesFrom n ds).length =
      ds.countP fun d => d.phase.isRegistered := by
  induction ds generalizing n with
  | nil => rfl
  | cons d rest ih =>
      rw [entriesFrom]
      split
      · next registered =>
          rw [List.length_cons, ih]
          exact (List.countP_cons_of_pos (by exact registered)).symm
      · next unregistered =>
          rw [ih]
          exact (List.countP_cons_of_neg (by exact unregistered)).symm

/-- A duty keeps the descriptor of its connection open until it has closed
it. -/
def Owns (d : Duty) : Prop :=
  d.pollId? =
    if d.phase.isClosed then none else some d.connection.id

theorem Owns.of_isRegistered
    {d : Duty}
    (owns : d.Owns)
    (registered : d.phase.isRegistered = true) :
    d.pollId? = some d.connection.id := by
  rw [owns]
  cases hphase : d.phase <;> simp_all [TaskPhase.isRegistered, TaskPhase.isClosed]

theorem Owns.same
    {d d' : Duty}
    (owns : d.Owns)
    (connection_eq : d'.connection = d.connection)
    (closed_eq : d'.phase.isClosed = d.phase.isClosed) :
    d'.Owns := by
  unfold Owns pollId? at owns ⊢
  rw [connection_eq, closed_eq, owns]

/-- The numbers of registered connections are numbers of open descriptors. -/
theorem keys_sublist
    {ds : List Duty}
    (owns : ∀ d ∈ ds, d.Owns)
    (n : Nat) :
    List.Sublist ((entriesFrom n ds).map Prod.fst)
      (ds.filterMap Duty.pollId?) := by
  induction ds generalizing n with
  | nil => exact List.Sublist.refl _
  | cons d rest ih =>
      obtain ⟨hd, hrest⟩ := List.forall_mem_cons.mp owns
      rw [entriesFrom]
      split
      · next registered =>
          rw [List.map_cons,
            List.filterMap_cons_some (hd.of_isRegistered registered)]
          exact (ih hrest (n + 1)).cons_cons _
      · rw [List.filterMap_cons]
        split
        · exact ih hrest (n + 1)
        · exact (ih hrest (n + 1)).cons _

/-- A duty that does not open a descriptor leaves no more of them open. -/
theorem pollIds_set
    {ds : List Duty} {i : Nat} {d : Duty}
    (there : ds[i]? = some d)
    (d' : Duty)
    (poll : d'.pollId? = d.pollId? ∨ d'.pollId? = none) :
    List.Sublist ((ds.set i d').filterMap Duty.pollId?)
      (ds.filterMap Duty.pollId?) := by
  obtain ⟨left, right, -, hds, hset⟩ := exists_set_eq there
  rw [hset, hds, List.filterMap_append, List.filterMap_append]
  refine List.Sublist.append_left ?_ _
  rcases poll with hsame | hnone
  · rw [List.filterMap_cons, List.filterMap_cons, hsame]
  · rw [List.filterMap_cons_none hnone, List.filterMap_cons]
    split
    · exact List.Sublist.refl _
    · exact List.sublist_cons_self _ _

end Duty

namespace Roll

variable {σ : Type} {r r' : Roll}

/-- The interrupters of a register, each under its number. -/
def interrupters (registry : List (Nat × Registration)) :
    List (Nat × Interrupter) :=
  registry.map fun e => (e.1, e.2.interrupter)

/-- The register holds what it should: an entry for every duty that is
registered.  Open descriptors have different numbers. -/
structure Register
    (duties : List Duty)
    (registry : List (Nat × Registration)) : Prop where
  owns : ∀ d ∈ duties, d.Owns
  entries : interrupters registry = Duty.entriesFrom 0 duties
  apart :
    (duties.filterMap Duty.pollId? ++
      registry.map fun e => e.2.descriptor).Nodup

namespace Register

variable {duties : List Duty} {registry : List (Nat × Registration)}

theorem start :
    Register [] [] :=
  ⟨by simp, rfl, List.nodup_nil⟩

theorem keys_nodup
    (register : Register duties registry) :
    (registry.map Prod.fst).Nodup := by
  have hkeys : registry.map Prod.fst =
      (Duty.entriesFrom 0 duties).map Prod.fst := by
    rw [← register.entries, interrupters, List.map_map]
    rfl
  rw [hkeys]
  exact (List.nodup_append.mp register.apart).1.sublist
    (Duty.keys_sublist register.owns 0)

theorem length_eq
    (register : Register duties registry) :
    registry.length = duties.countP fun d => d.phase.isRegistered := by
  rw [← Duty.length_entriesFrom 0, ← register.entries, interrupters,
    List.length_map]

/-- Every entry is that of a registered duty. -/
theorem of_mem
    (register : Register duties registry)
    {e : Nat × Registration}
    (mem : e ∈ registry) :
    ∃ i d,
      duties[i]? = some d ∧
      d.phase.isRegistered = true ∧
      e.1 = d.connection.id ∧
      e.2.interrupter = ⟨⟨i, 1⟩, d.connection.id⟩ := by
  have hin : (e.1, e.2.interrupter) ∈ Duty.entriesFrom 0 duties := by
    rw [← register.entries]
    exact List.mem_map.mpr ⟨e, mem, rfl⟩
  obtain ⟨i, d, hd, registered, heq⟩ := Duty.mem_entriesFrom.mp hin
  rw [Nat.zero_add, Duty.entry, Prod.mk.injEq] at heq
  exact ⟨i, d, hd, registered, heq⟩

/-- A registered duty has an entry of its own.  It is found by the number of the
connection, and when what has that number is removed, it alone goes. -/
theorem own
    (register : Register duties registry)
    {i : Nat} {d : Duty}
    (there : duties[i]? = some d)
    (registered : d.phase.isRegistered = true) :
    ∃ left r right,
      registry = left ++ (d.connection.id, r) :: right ∧
      r.interrupter = ⟨⟨i, 1⟩, d.connection.id⟩ ∧
      registry.lookup d.connection.id = some r ∧
      registry.filter (fun e => e.1 ≠ d.connection.id) =
        left ++ right ∧
      ∀ d', d'.phase.isRegistered = false →
        interrupters (left ++ right) =
          Duty.entriesFrom 0 (duties.set i d') := by
  obtain ⟨before, after, rfl, hduties, hset⟩ := exists_set_eq there
  have hentries := register.entries
  rw [hduties, Duty.entriesFrom_append, Duty.entriesFrom,
    if_pos registered, interrupters, List.map_eq_append_iff] at hentries
  obtain ⟨left, rest, rfl, hleft, hrest⟩ := hentries
  obtain ⟨⟨id, r⟩, right, rfl, hr, hright⟩ :=
    List.map_eq_cons_iff.mp hrest
  simp only [Duty.entry, Prod.mk.injEq, Nat.zero_add] at hr
  obtain ⟨rfl, hr⟩ := hr
  obtain ⟨hlookup, hfilter⟩ :=
    lookup_and_filter_key register.keys_nodup
  refine ⟨left, r, right, rfl, hr, hlookup, hfilter, ?_⟩
  intro d' unregistered
  rw [hset, Duty.entriesFrom_append, Duty.entriesFrom,
    if_neg (by simp [unregistered]), interrupters, List.map_append,
    hleft, hright]

/-- A registered duty finds its entry. -/
theorem lookup_ne_none
    (register : Register duties registry)
    {i : Nat} {d : Duty}
    (there : duties[i]? = some d)
    (registered : d.phase.isRegistered = true) :
    registry.lookup d.connection.id ≠ none := by
  obtain ⟨-, e, -, -, -, hlookup, -⟩ := register.own there registered
  rw [hlookup]
  exact Option.some_ne_none e

/-- A duty that goes on stays as it was on the register, if its registration
does. -/
theorem advance
    (register : Register duties registry)
    {i : Nat} {d d' : Duty}
    (there : duties[i]? = some d)
    (owns : d'.Owns)
    (poll : d'.pollId? = d.pollId? ∨ d'.pollId? = none)
    (id_eq : d'.connection.id = d.connection.id)
    (same : d'.phase.isRegistered = d.phase.isRegistered) :
    Register (duties.set i d') registry := by
  refine ⟨?_, ?_, ?_⟩
  · intro x hx
    rcases List.mem_or_eq_of_mem_set hx with hx | rfl
    · exact register.owns x hx
    · exact owns
  · obtain ⟨before, after, rfl, hduties, hset⟩ := exists_set_eq there
    have hentry : d'.entry = d.entry := by
      unfold Duty.entry
      rw [id_eq]
    rw [register.entries, hset, hduties, Duty.entriesFrom_append,
      Duty.entriesFrom_append, Duty.entriesFrom, Duty.entriesFrom,
      same, hentry]
  · exact register.apart.sublist
      ((Duty.pollIds_set there d' poll).append_right _)

/-- A duty that leaves the register takes its own entry with it. -/
theorem leave
    (register : Register duties registry)
    {i : Nat} {d d' : Duty}
    (there : duties[i]? = some d)
    (registered : d.phase.isRegistered = true)
    (owns : d'.Owns)
    (connection_eq : d'.connection = d.connection)
    (gone : d'.phase.isRegistered = false) :
    Register (duties.set i d')
      (registry.filter fun e => e.1 ≠ d.connection.id) := by
  obtain ⟨left, r, right, hregistry, -, -, hfilter, hentries⟩ :=
    register.own there registered
  refine ⟨?_, ?_, ?_⟩
  · intro x hx
    rcases List.mem_or_eq_of_mem_set hx with hx | rfl
    · exact register.owns x hx
    · exact owns
  · rw [hfilter]
    exact hentries d' gone
  · have hpoll : d'.pollId? = d.pollId? := by
      unfold Duty.pollId?
      rw [connection_eq]
    exact register.apart.sublist
      ((Duty.pollIds_set there d' (Or.inl hpoll)).append
        (List.filter_sublist.map _))

/-- A new duty is registered with numbers that nothing open has.  It displaces no
entry, since what is on the register has an open descriptor. -/
theorem enter
    (register : Register duties registry)
    {c : Connection} {permit duplicate : Nat}
    (owns : c.handle ≠ none)
    (fresh : c.id ∉ duties.filterMap Duty.pollId? ++
      registry.map fun e => e.2.descriptor)
    (fresh_duplicate : duplicate ∉ duties.filterMap Duty.pollId? ++
      registry.map fun e => e.2.descriptor)
    (apart : duplicate ≠ c.id) :
    Register (duties ++ [⟨c, permit, .opened⟩])
      (registry.filter (fun e => e.1 ≠ c.id) ++
        [(c.id, ⟨⟨⟨duties.length, 1⟩, c.id⟩, duplicate⟩)]) := by
  have hpoll : c.pollId? = some c.id := by
    cases hhandle : c.handle with
    | none => exact absurd hhandle owns
    | some h => simp [Connection.pollId?, hhandle]
  have hkeep : registry.filter (fun e => e.1 ≠ c.id) = registry := by
    refine List.filter_eq_self.mpr ?_
    intro e he
    obtain ⟨i, d, hd, registered, hid, -⟩ := register.of_mem he
    have hin : e.1 ∈ duties.filterMap Duty.pollId? :=
      List.mem_filterMap.mpr
        ⟨d, List.mem_of_getElem? hd,
          hid ▸ (register.owns d
            (List.mem_of_getElem? hd)).of_isRegistered registered⟩
    simp only [decide_eq_true_eq]
    intro heq
    exact fresh (List.mem_append_left _ (heq ▸ hin))
  rw [hkeep]
  refine ⟨?_, ?_, ?_⟩
  · intro d hd
    rcases List.mem_append.mp hd with hd | hd
    · exact register.owns d hd
    · obtain rfl := List.mem_singleton.mp hd
      exact hpoll
  · rw [Duty.entriesFrom_append, ← register.entries, interrupters,
      List.map_append, Nat.zero_add]
    rfl
  · rw [List.filterMap_append, List.map_append]
    have hnew : ([⟨c, permit, .opened⟩] : List Duty).filterMap
        Duty.pollId? = [c.id] := by
      simp [Duty.pollId?, hpoll]
    rw [hnew]
    have hperm :
        (duties.filterMap Duty.pollId? ++ [c.id] ++
          ((registry.map fun e => e.2.descriptor) ++ [duplicate])).Perm
        (c.id :: duplicate :: (duties.filterMap Duty.pollId? ++
          registry.map fun e => e.2.descriptor)) := by
      rw [List.perm_iff_count]
      intro x
      simp only [List.count_append, List.count_cons, List.count_nil]
      omega
    rw [List.map_singleton, hperm.nodup_iff, List.nodup_cons,
      List.nodup_cons, List.mem_cons, not_or]
    exact ⟨⟨apart.symm, fresh⟩, fresh_duplicate, register.apart⟩

/-- The register stays right in every step. -/
theorem keep
    {a : ServerStep σ} {new : List (Connection × Interrupter)}
    {T : Trace}
    (register : Register r.duties r.registry)
    (moves : r.Moves a new r' T) :
    Register r'.duties r'.registry := by
  have howns : ∀ {i : Nat} {d : Duty}, r.duties[i]? = some d → d.Owns := by
    intro i d there
    exact register.owns d (List.mem_of_getElem? there)
  cases moves with
  | admits peer t handedOver waits fresh fresh_duplicate apart letIn owns =>
      exact register.enter (by simp [owns]) fresh fresh_duplicate apart
  | serves service there before after =>
      have hbefore := TaskPhase.isRegistered_of_isServing before
      refine
        register.advance there ((howns there).same rfl ?_)
          (Or.inl rfl) rfl ?_
      · rw [TaskPhase.isClosed_of_isRegistered hbefore,
          TaskPhase.isClosed_of_isRegistered after]
      · rw [hbefore, after]
  | deregisters there phase registered =>
      refine
        register.leave there ?_ ((howns there).same rfl ?_) rfl rfl
      · rw [phase]
        rfl
      · rw [phase]
        rfl
  | misses there phase unregistered =>
      exact absurd unregistered
        (register.lookup_ne_none there (by rw [phase]; rfl))
  | closes there phase parts =>
      refine register.advance there rfl (Or.inr rfl) rfl ?_
      rw [phase]
      rfl
  | givesBack there phase back =>
      refine
        register.advance there ((howns there).same rfl ?_)
          (Or.inl rfl) rfl ?_
      · rw [phase]
        rfl
      · rw [phase]
        rfl
  | acquires | fails | abandons | turnsAway | stops | stopsWaiting
  | interrupts | passes | finishes | stirs => exact register

/-- A task that takes its connection off the register takes off the entry of that
connection, and no other. -/
theorem deregistered
    {i : Nat} {new : List (Connection × Interrupter)} {T : Trace}
    (register : Register r.duties r.registry)
    (moves : r.Moves (.deregister i : ServerStep σ) new r' T) :
    ∃ left e right d,
      r.registry = left ++ e :: right ∧
      r'.registry = left ++ right ∧
      r.duties[i]? = some d ∧
      e.1 = d.connection.id ∧
      e.2.interrupter = ⟨⟨i, 1⟩, d.connection.id⟩ := by
  cases moves with
  | @deregisters _ d _ there phase registered =>
      obtain ⟨left, e, right, hregistry, hit, -, hfilter, -⟩ :=
        register.own there (by rw [phase]; rfl)
      exact
        ⟨left, (d.connection.id, e), right, d, hregistry, hfilter, there,
          rfl, hit⟩
  | misses there phase unregistered =>
      exact absurd unregistered
        (register.lookup_ne_none there (by rw [phase]; rfl))
  | serves service => cases service

end Register

end Roll

end StreamServer
