import CcSwitchRouter.Ingress.BodyBuffer
import CcSwitchRouter.Lib.Slots
import Mathlib.Logic.Relation

namespace CcSwitchRouter.RequestBody

def Construction.lease : Construction → Nat
  | requested _ => 0
  | leased capacity | allocated capacity _ | releasing capacity => capacity

def Phase.buffers : Phase → List Buffer
  | ready b _ | framing b _ _ | growing b _ _ _ | finishing b _ _ => [b]
  | replacing b r _ _ => [b, r]
  | creating _ | workspace _ | gone => []

def Phase.buffer? (p : Phase) : Option Buffer := p.buffers.head?

def IngressTask.leases (t : IngressTask) : Nat :=
  match t.phase with
  | .creating c => c.lease
  | .ready b _ | .framing b _ _ => b.lease
  | .growing b frame _ c => b.lease + frame + c.lease
  | .replacing b r frame _ => b.lease + r.lease + frame
  | .finishing b frame _ => b.lease + frame
  | .workspace amount => amount
  | .gone => 0

/-- The requested capacity is at least `n`, and what was allocated at least that. -/
def Construction.Covers (n : Nat) : Construction → Prop
  | requested capacity | leased capacity | releasing capacity => n ≤ capacity
  | allocated capacity actual => n ≤ capacity ∧ capacity ≤ actual

def Buffer.Ok (b : Buffer) : Prop := b.data.length ≤ b.capacity ∧ b.capacity ≤ b.lease

structure IngressTask.Ok (t : IngressTask) : Prop where
  buffers : ∀ b ∈ t.phase.buffers, b.Ok
  contents : ∀ b ∈ t.phase.buffers, b.data = t.accepted.flatten
  creating : ∀ c, t.phase = .creating c → c.Covers 0 ∧ t.accepted = []
  growing : ∀ b frame bytes c, t.phase = .growing b frame bytes c →
    c.Covers (b.data.length + bytes.length)
  replacing : ∀ b r frame bytes, t.phase = .replacing b r frame bytes →
    b.data.length + bytes.length ≤ r.capacity

/-- What one operation of `Buffer::new` moves. -/
inductive Constructed (n : Nat) (c : Construction) (used used' : Nat) : ConstructionResult → Prop
  | going {c'} (h : c'.Covers n) (hu : used' + c.lease = used + c'.lease) :
      Constructed n c used used' (.going c')
  | built {b} (hd : b.data = []) (hn : n ≤ b.capacity) (hl : b.capacity ≤ b.lease)
      (hu : used' + c.lease = used + b.lease) : Constructed n c used used' (.built b)
  | refused (hu : used' + c.lease = used) : Constructed n c used used' .refused

section

variable {limit used n frame maximum : Nat} {granted : Option Nat} {c : Construction} {b : Buffer}
  {t : IngressTask} {bytes : Bytes}

theorem Construction.next_constructed (limit : Nat) (h : c.Covers n) (hu : c.lease ≤ used)
    (hg : ∀ capacity actual, granted = some actual → c = .leased capacity → capacity ≤ actual) :
    Constructed n c used (c.next limit used granted).2 (c.next limit used granted).1 ∧
      (used ≤ limit → (c.next limit used granted).2 ≤ limit) := by
  cases c with
  | requested capacity =>
    simp only [next]
    cases hr : reserve limit used capacity with
    | none => exact ⟨.refused rfl, id⟩
    | some next =>
      obtain ⟨rfl, hle⟩ := reserve_eq_some hr
      exact ⟨.going h rfl, fun _ => hle⟩
  | leased capacity =>
    simp only [next]
    cases hgr : granted with
    | none => exact ⟨.going h rfl, id⟩
    | some actual =>
      have hle := hg capacity actual hgr rfl
      dsimp only
      split
      · exact ⟨.going ⟨h, hle⟩ rfl, id⟩
      · have h' : n ≤ capacity := h
        refine ⟨.built rfl (h'.trans hle) ?_ rfl, id⟩
        change actual ≤ capacity
        omega
  | allocated capacity actual =>
    obtain ⟨hn, hle⟩ := h
    simp only [next]
    cases hr : reserve limit used (actual - capacity) with
    | none => exact ⟨.going hn rfl, id⟩
    | some next =>
      obtain ⟨rfl, hlim⟩ := reserve_eq_some hr
      refine ⟨.built rfl (hn.trans hle) ?_ ?_, fun _ => hlim⟩
      · change actual ≤ capacity + (actual - capacity)
        omega
      · change used + (actual - capacity) + capacity = used + (capacity + (actual - capacity))
        omega
  | releasing capacity =>
    refine ⟨.refused ?_, fun hl => (Nat.sub_le _ _).trans hl⟩
    change used - capacity + capacity = used
    exact Nat.sub_add_cancel hu

theorem Buffer.plan_ok (h : b.plan bytes maximum = .ok none) :
    b.data.length + bytes.length ≤ b.capacity := by
  simp only [plan] at h
  split at h
  · cases h
  split at h
  · cases h
  split at h
  · cases h
  · omega

theorem Buffer.plan_grow {capacity : Nat} (h : b.plan bytes maximum = .ok (some capacity)) :
    b.data.length + bytes.length ≤ capacity := by
  simp only [plan] at h
  split at h
  · cases h
  split at h
  · cases h
  split at h
  · obtain rfl : _ = capacity := by simpa using h
    omega
  · cases h

theorem Buffer.Ok.extend (h : b.Ok) (hc : b.data.length + bytes.length ≤ b.capacity) :
    (b.extend bytes).Ok :=
  ⟨by simpa [Buffer.extend] using hc, h.2⟩

/-- What one operation of a request does: its buffer stays and nothing is accepted, or the chunk is
accepted whole, or the buffer comes into being or goes away. -/
inductive TaskMove (t t' : IngressTask) : Prop
  | kept (hb : t'.phase.buffer? = t.phase.buffer?) (ha : t'.accepted = t.accepted)
  | accepted (bytes : Bytes) (b : Buffer) (frame : Nat) (ha : t'.accepted = t.accepted ++ [bytes])
      (hp : t'.phase = .finishing b frame none)
  | created (hp : t.phase.buffer? = none) (ha : t'.accepted = t.accepted)
  | dropped (hp : t'.phase = .gone) (ha : t'.accepted = t.accepted)

structure Moved (limit used used' : Nat) (t t' : IngressTask) : Prop where
  ok : t'.Ok
  leases : used' + t.leases = used + t'.leases
  limit : used ≤ limit → used' ≤ limit
  move : TaskMove t t'

theorem IngressTask.Ok.of_ready (h : b.Ok) (hd : b.data = t.accepted.flatten)
    {p : Phase} (hp : p.buffers = [b]) (hc : ∀ c, p ≠ .creating c)
    (hg : ∀ b frame bytes c, p ≠ .growing b frame bytes c) :
    IngressTask.Ok { t with phase := p } where
  buffers := by simpa [hp] using h
  contents := by simpa [hp] using hd
  creating c hpc := absurd hpc (hc c)
  growing b frame bytes c hpg := absurd hpg (hg b frame bytes c)
  replacing b r frame bytes hpr := by
    change p = _ at hpr
    rw [hpr] at hp
    simp [Phase.buffers] at hp

theorem IngressTask.append_ok (hb : b.Ok) (hd : b.data = t.accepted.flatten)
    (hp : t.phase.buffer? = some b) (frame : Nat) (bytes : Bytes) (maximum : Nat) :
    (t.append b frame bytes maximum).Ok ∧
      (t.append b frame bytes maximum).leases = b.lease + frame ∧
      TaskMove t (t.append b frame bytes maximum) := by
  simp only [append]
  cases hplan : b.plan bytes maximum with
  | error kind =>
    exact ⟨.of_ready hb hd rfl nofun nofun, rfl, .kept hp.symm rfl⟩
  | ok o =>
    cases o with
    | none =>
      refine ⟨⟨?_, ?_, nofun, nofun, nofun⟩, rfl, .accepted bytes _ _ rfl rfl⟩
      · simpa [Phase.buffers] using hb.extend (Buffer.plan_ok hplan)
      · simp [Phase.buffers, Buffer.extend, hd]
    | some capacity =>
      refine ⟨⟨?_, ?_, nofun, ?_, nofun⟩, rfl, .kept ?_ rfl⟩
      · simpa [Phase.buffers] using hb
      · simpa [Phase.buffers] using hd
      · intro b' frame' bytes' c' hp'
        cases hp'
        exact Buffer.plan_grow hplan
      · exact hp.symm

theorem IngressTask.Ok.buffer (h : t.Ok) (hp : t.phase.buffers = [b]) :
    b.Ok ∧ b.data = t.accepted.flatten :=
  ⟨h.buffers b (by simp [hp]), h.contents b (by simp [hp])⟩

theorem IngressTask.Ok.gone (t : IngressTask) : IngressTask.Ok { t with phase := .gone } :=
  ⟨by simp [Phase.buffers], by simp [Phase.buffers], nofun, nofun, nofun⟩

theorem Moved.idle (h : t.Ok) : Moved limit used used t t := ⟨h, rfl, id, .kept rfl rfl⟩

theorem IngressTask.start_moved (h : t.Ok) (hu : t.leases ≤ used) (c : Command) :
    Moved limit used (t.start used c).2 t (t.start used c).1 := by
  cases c with
  | append bytes maximum =>
    simp only [start]
    split
    · next b last hp =>
      obtain ⟨hb, hd⟩ := h.buffer (by rw [hp]; rfl)
      obtain ⟨hok, hl, hm⟩ := append_ok hb hd (by rw [hp]; rfl) 0 bytes maximum
      refine ⟨hok, ?_, id, hm⟩
      rw [hl, leases, hp]
      rfl
    · exact .idle h
  | appendFrame bytes maximum =>
    simp only [start]
    split
    · next b last hp =>
      obtain ⟨hb, hd⟩ := h.buffer (by rw [hp]; rfl)
      refine ⟨.of_ready hb hd rfl nofun nofun, ?_, id, .kept (by rw [hp]; rfl) rfl⟩
      rw [leases, hp]
      rfl
    · exact .idle h
  | drop =>
    simp only [start]
    split
    · next b last hp =>
      have hle : b.lease ≤ used := by simpa only [leases, hp] using hu
      refine ⟨.gone t, ?_, fun hl => (Nat.sub_le _ _).trans hl, .dropped rfl rfl⟩
      rw [leases, hp]
      exact Nat.sub_add_cancel hle
    · next amount hp =>
      have hle : amount ≤ used := by simpa only [leases, hp] using hu
      refine ⟨.gone t, ?_, fun hl => (Nat.sub_le _ _).trans hl, .dropped rfl rfl⟩
      rw [leases, hp]
      exact Nat.sub_add_cancel hle
    · exact .idle h

theorem creating_moved (h : t.Ok) (hp : t.phase = .creating c) (hu : t.leases ≤ used)
    (hg : ∀ capacity actual, granted = some actual → c = .leased capacity → capacity ≤ actual) :
    Moved limit used (t.advance limit used granted).2 t (t.advance limit used granted).1 := by
  obtain ⟨hc, hacc⟩ := h.creating c hp
  have hl : t.leases = c.lease := by simp only [IngressTask.leases, hp]
  obtain ⟨hn, hlim⟩ := Construction.next_constructed limit hc (hl ▸ hu) hg
  have hnone : t.phase.buffer? = none := by rw [hp]; rfl
  simp only [IngressTask.advance, hp]
  generalize c.next limit used granted = r at hn hlim
  obtain ⟨res, used'⟩ := r
  cases hn with
  | going hcov hu' =>
    refine ⟨⟨by simp [Phase.buffers], by simp [Phase.buffers], ?_, nofun, nofun⟩, ?_, hlim,
      .created hnone rfl⟩
    · intro c' hc'
      cases hc'
      exact ⟨hcov, hacc⟩
    · rw [hl]
      exact hu'
  | built hd hn hb hu' =>
    refine ⟨.of_ready ⟨by simp [hd], hb⟩ (by simp [hd, hacc]) rfl nofun nofun, ?_, hlim,
      .created hnone rfl⟩
    rw [hl]
    exact hu'
  | refused hu' =>
    refine ⟨.gone t, ?_, hlim, .dropped rfl rfl⟩
    rw [hl]
    exact hu'

theorem growing_moved (h : t.Ok) (hp : t.phase = .growing b frame bytes c)
    (hu : t.leases ≤ used)
    (hg : ∀ capacity actual, granted = some actual → c = .leased capacity → capacity ≤ actual) :
    Moved limit used (t.advance limit used granted).2 t (t.advance limit used granted).1 := by
  have hc := h.growing b frame bytes c hp
  obtain ⟨hb, hd⟩ := h.buffer (by rw [hp]; rfl)
  have hl : t.leases = b.lease + frame + c.lease := by simp only [IngressTask.leases, hp]
  have hlease : c.lease ≤ used := by omega
  obtain ⟨hn, hlim⟩ := Construction.next_constructed limit hc hlease hg
  have hsome : t.phase.buffer? = some b := by rw [hp]; rfl
  simp only [IngressTask.advance, hp]
  generalize c.next limit used granted = r at hn hlim
  obtain ⟨res, used'⟩ := r
  cases hn with
  | @going c' hcov hu' =>
    refine ⟨⟨by simpa [Phase.buffers] using hb, by simpa [Phase.buffers] using hd, nofun, ?_,
      nofun⟩, ?_, hlim, .kept hsome.symm rfl⟩
    · intro b' frame' bytes' c'' hc'
      cases hc'
      exact hcov
    · rw [hl]
      change used' + _ = used + (b.lease + frame + c'.lease)
      omega
  | @built r hr hn hbl hu' =>
    have hrok : (r.extend b.data).Ok := by
      refine ⟨?_, hbl⟩
      simp only [Buffer.extend, hr, List.nil_append]
      omega
    refine ⟨⟨?_, ?_, nofun, nofun, ?_⟩, ?_, hlim, .kept hsome.symm rfl⟩
    · simpa [Phase.buffers] using ⟨hb, hrok⟩
    · simpa [Phase.buffers, Buffer.extend, hr] using hd
    · intro b' r' frame' bytes' hp'
      cases hp'
      exact hn
    · rw [hl]
      change used' + _ = used + (b.lease + r.lease + frame)
      omega
  | refused hu' =>
    refine ⟨.of_ready hb hd rfl nofun nofun, ?_, hlim, .kept hsome.symm rfl⟩
    rw [hl]
    change used' + _ = used + (b.lease + frame)
    omega

theorem IngressTask.advance_moved (h : t.Ok) (hu : t.leases ≤ used)
    (hg : ∀ capacity actual, granted = some actual →
      (t.phase = .creating (.leased capacity) ∨
        ∃ b frame bytes, t.phase = .growing b frame bytes (.leased capacity)) →
      capacity ≤ actual) :
    Moved limit used (t.advance limit used granted).2 t (t.advance limit used granted).1 := by
  cases hp : t.phase with
  | creating c =>
    exact creating_moved h hp hu fun capacity actual hgr hc =>
      hg capacity actual hgr (.inl (hp.trans (hc ▸ rfl)))
  | growing b frame bytes c =>
    exact growing_moved h hp hu fun capacity actual hgr hc =>
      hg capacity actual hgr (.inr ⟨b, frame, bytes, hp.trans (hc ▸ rfl)⟩)
  | framing b bytes maximum =>
    obtain ⟨hb, hd⟩ := h.buffer (by rw [hp]; rfl)
    have hl : t.leases = b.lease := by simp only [leases, hp]
    simp only [advance, hp]
    cases hr : reserve limit used bytes.length with
    | none =>
      refine ⟨.of_ready hb hd rfl nofun nofun, ?_, id, .kept (by rw [hp]; rfl) rfl⟩
      rw [hl]
      rfl
    | some next =>
      obtain ⟨rfl, hlim⟩ := reserve_eq_some hr
      obtain ⟨hok, hl', hm⟩ := append_ok hb hd (by rw [hp]; rfl) bytes.length bytes maximum
      refine ⟨hok, ?_, fun _ => hlim, hm⟩
      dsimp only
      rw [hl, hl']
      omega
  | replacing b r frame bytes =>
    have hb := h.buffers r (by simp [hp, Phase.buffers])
    have hd := h.contents r (by simp [hp, Phase.buffers])
    have hold := h.contents b (by simp [hp, Phase.buffers])
    have hcap := h.replacing b r frame bytes hp
    have hl : t.leases = b.lease + r.lease + frame := by simp only [leases, hp]
    simp only [advance, hp]
    refine ⟨⟨?_, ?_, nofun, nofun, nofun⟩, ?_, fun hlim => (Nat.sub_le _ _).trans hlim,
      .accepted bytes _ _ rfl rfl⟩
    · have : (r.extend bytes).Ok := hb.extend (by rw [hd, ← hold]; exact hcap)
      simpa [Phase.buffers] using this
    · simp [Phase.buffers, Buffer.extend, hd]
    · rw [hl]
      change used - b.lease + _ = used + (r.lease + frame)
      omega
  | finishing b frame outcome =>
    obtain ⟨hb, hd⟩ := h.buffer (by rw [hp]; rfl)
    have hl : t.leases = b.lease + frame := by simp only [leases, hp]
    simp only [advance, hp]
    refine ⟨.of_ready hb hd rfl nofun nofun, ?_, fun hlim => (Nat.sub_le _ _).trans hlim,
      .kept (by rw [hp]; rfl) rfl⟩
    rw [hl]
    change used - frame + _ = used + b.lease
    omega
  | ready b last =>
    simp only [advance, hp]
    exact .idle h
  | workspace amount =>
    simp only [advance, hp]
    exact .idle h
  | gone =>
    simp only [advance, hp]
    exact .idle h

end

def Runs (limit : Nat) : Ingress → Ingress → Prop := Relation.ReflTransGen (IngressStep limit)

structure Ingress.Sound (limit : Nat) (s : Ingress) : Prop where
  used : s.used = (s.tasks.map IngressTask.leases).sum
  limit : s.used ≤ limit
  tasks : ∀ t ∈ s.tasks, t.Ok

section

variable {limit : Nat} {s u : Ingress} {i : Nat} {t t' : IngressTask}

theorem Ingress.Sound.set {used' : Nat} (h : s.Sound limit) (ht : s.tasks[i]? = some t)
    (hm : Moved limit s.used used' t t') : Ingress.Sound limit ⟨used', s.tasks.set i t'⟩ where
  used := by
    have := List.sum_map_set (y := t') IngressTask.leases ht
    have h₁ := h.used
    have h₂ := hm.leases
    dsimp only
    omega
  limit := hm.limit h.limit
  tasks x hx := (List.mem_or_eq_of_mem_set hx).elim (h.tasks x) fun he => he ▸ hm.ok

theorem Ingress.Sound.leases_le (h : s.Sound limit) (ht : s.tasks[i]? = some t) :
    t.leases ≤ s.used := by
  rw [h.used]
  exact List.le_sum_map_of_getElem? _ ht

theorem Ingress.Sound.spawn {used' : Nat} (h : s.Sound limit) (hu : used' = s.used + t.leases)
    (hl : used' ≤ limit) (ht : t.Ok) : Ingress.Sound limit ⟨used', s.tasks ++ [t]⟩ where
  used := by simp [hu, h.used]
  limit := hl
  tasks x hx := (List.mem_append.1 hx).elim (h.tasks x) fun he => List.mem_singleton.1 he ▸ ht

inductive Operation (limit used : Nat) (t : IngressTask) : IngressTask → Prop
  | command (c : Command) : Operation limit used t (t.start used c).1
  | advance (granted : Option Nat) : Operation limit used t (t.advance limit used granted).1

inductive SystemMove (limit : Nat) (s u : Ingress) : Prop
  | spawned (t : IngressTask) (hu : u.tasks = s.tasks ++ [t])
  | moved (i : Nat) (t t' : IngressTask) (ht : s.tasks[i]? = some t)
      (hu : u.tasks = s.tasks.set i t') (hm : TaskMove t t') (ho : Operation limit s.used t t')

theorem Ingress.Sound.step (h : s.Sound limit) (hs : IngressStep limit s u) :
    u.Sound limit ∧ SystemMove limit s u := by
  cases hs with
  | create capacity =>
    refine ⟨h.spawn rfl h.limit ⟨by simp [Phase.buffers], by simp [Phase.buffers], ?_, nofun,
      nofun⟩, .spawned _ rfl⟩
    intro c hc
    cases hc
    exact ⟨Nat.zero_le _, rfl⟩
  | workspace amount next hr =>
    obtain ⟨rfl, hlim⟩ := reserve_eq_some hr
    exact ⟨h.spawn rfl hlim ⟨by simp [Phase.buffers], by simp [Phase.buffers], nofun, nofun,
      nofun⟩, .spawned _ rfl⟩
  | command i t c ht =>
    have hm : Moved limit s.used _ t _ :=
      IngressTask.start_moved (h.tasks t (List.mem_of_getElem? ht)) (h.leases_le ht) c
    exact ⟨h.set ht hm, .moved i t _ ht rfl hm.move (.command c)⟩
  | advance i t granted ht hg =>
    have hm : Moved limit s.used _ t _ :=
      IngressTask.advance_moved (h.tasks t (List.mem_of_getElem? ht)) (h.leases_le ht) hg
    exact ⟨h.set ht hm, .moved i t _ ht rfl hm.move (.advance granted)⟩

theorem Runs.sound (h : s.Sound limit) (hr : Runs limit s u) : u.Sound limit := by
  induction hr with
  | refl => exact h
  | tail _ hs ih => exact (ih.step hs).1

variable {b : Buffer} {used : Nat} {acc : List Bytes}

theorem Operation.of_finishing {frame : Nat} (ho : Operation limit used t t')
    (hp : t.phase = .finishing b frame none) : t' = t ∨ t'.phase = .ready b none := by
  cases ho with
  | command c => cases c <;> simp [IngressTask.start, hp]
  | advance granted => exact .inr (by simp [IngressTask.advance, hp])

/-- A request inside an append that started with the buffer `b` and the chunks `acc`: it has both
still, or the chunk was accepted. -/
def Appending (b : Buffer) (acc : List Bytes) (t : IngressTask) : Prop :=
  (t.phase.buffer? = some b ∧ t.accepted = acc) ∨ ∃ b' frame, t.phase = .finishing b' frame none

def Busy (i : Nat) (s : Ingress) : Prop :=
  ∃ t, s.tasks[i]? = some t ∧ ∀ b last, t.phase ≠ .ready b last

theorem Appending.move (h : Appending b acc t) (hbusy : ∀ b last, t.phase ≠ .ready b last)
    (hm : TaskMove t t') (ho : Operation limit used t t') :
    Appending b acc t' ∨ t'.phase = .gone ∨ ∃ b', t'.phase = .ready b' none := by
  rcases h with ⟨hb, ha⟩ | ⟨b', frame, hp⟩
  · cases hm with
    | kept hb' ha' => exact .inl (.inl ⟨hb'.trans hb, ha'.trans ha⟩)
    | accepted bytes b' frame ha' hp => exact .inl (.inr ⟨b', frame, hp⟩)
    | created hp => simp [hp] at hb
    | dropped hp => exact .inr (.inl hp)
  · rcases ho.of_finishing hp with rfl | hp'
    · exact .inl (.inr ⟨b', frame, hp⟩)
    · exact .inr (.inr ⟨b', hp'⟩)

theorem IngressTask.start_appending {last : Option FailureKind} {c : Command} (hc : c ≠ .drop) :
    Appending b acc (IngressTask.start used ⟨.ready b last, acc⟩ c).1 := by
  cases c with
  | drop => exact absurd rfl hc
  | appendFrame bytes maximum => exact .inl ⟨rfl, rfl⟩
  | append bytes maximum =>
    simp only [start, IngressTask.append]
    cases b.plan bytes maximum with
    | error kind => exact .inl ⟨rfl, rfl⟩
    | ok o =>
      cases o with
      | none => exact .inr ⟨_, _, rfl⟩
      | some capacity => exact .inl ⟨rfl, rfl⟩

theorem failed_append {b' : Buffer} {acc' : List Bytes} {kind : FailureKind} (h : s.Sound limit)
    (ht : s.tasks[i]? = some t) (ha : Appending b acc t)
    (hr : Relation.ReflTransGen (fun x y => IngressStep limit x y ∧ Busy i x) s u)
    (hend : u.tasks[i]? = some ⟨.ready b' (some kind), acc'⟩) : b' = b ∧ acc' = acc := by
  suffices hinv : u.Sound limit ∧ ∃ x, u.tasks[i]? = some x ∧
      (Appending b acc x ∨ x.phase = .gone ∨ ∃ b', x.phase = .ready b' none) by
    obtain ⟨-, x, hx, hx'⟩ := hinv
    obtain rfl := Option.some.inj (hx.symm.trans hend)
    rcases hx' with (⟨hb, hacc⟩ | ⟨_, _, hp⟩) | hp | ⟨_, hp⟩
    · exact ⟨Option.some.inj hb, hacc⟩
    all_goals cases hp
  clear hend
  induction hr with
  | refl => exact ⟨h, t, ht, .inl ha⟩
  | tail _ hs ih =>
    obtain ⟨hsound, x, hx, hinv⟩ := ih
    obtain ⟨hstep, hbusy⟩ := hs
    obtain ⟨hsound', hmove⟩ := hsound.step hstep
    refine ⟨hsound', ?_⟩
    obtain ⟨y, hy, hready⟩ := hbusy
    obtain rfl := Option.some.inj (hx.symm.trans hy)
    cases hmove with
    | spawned t' hu =>
      refine ⟨x, ?_, hinv⟩
      rw [hu, List.getElem?_append_left (List.getElem?_eq_some_iff.1 hx).1]
      exact hx
    | moved j t' t'' ht' hu hm ho =>
      by_cases hij : j = i
      · subst hij
        obtain rfl := Option.some.inj (hx.symm.trans ht')
        refine ⟨t'', by rw [hu, List.getElem?_set_self (List.getElem?_eq_some_iff.1 hx).1], ?_⟩
        rcases hinv with hinv | hgone | ⟨b'', hp⟩
        · exact hinv.move hready hm ho
        · right
          left
          cases ho with
          | command c => cases c <;> simp [IngressTask.start, hgone]
          | advance granted => simp [IngressTask.advance, hgone]
        · exact absurd hp (hready _ _)
      · refine ⟨x, ?_, hinv⟩
        rw [hu, List.getElem?_set_ne hij]
        exact hx

end

/-- Over every interleaving of requests under one limit: the counter is the sum of the live leases,
within the limit and zero once nothing is held; every buffer's lease covers its allocation, also
while both allocations of a regrowing buffer exist; contents are the accepted chunks; and a failed
append leaves its buffer, capacity and lease alone. -/
theorem body_budget_exact {limit : Nat} {u : Ingress} (hr : Runs limit ⟨0, []⟩ u) :
    u.used = (u.tasks.map IngressTask.leases).sum ∧ u.used ≤ limit ∧
    ((∀ t ∈ u.tasks, t.phase = .gone) → u.used = 0) ∧
    (∀ t ∈ u.tasks, ∀ b ∈ t.phase.buffers, b.data.length ≤ b.capacity ∧ b.capacity ≤ b.lease ∧
      b.data = t.accepted.flatten) ∧
    ∀ i b last acc c, u.tasks[i]? = some ⟨.ready b last, acc⟩ → c ≠ .drop → ∀ v,
      Relation.ReflTransGen (fun x y => IngressStep limit x y ∧ Busy i x)
        ⟨(IngressTask.start u.used ⟨.ready b last, acc⟩ c).2,
          u.tasks.set i (IngressTask.start u.used ⟨.ready b last, acc⟩ c).1⟩ v →
      ∀ b' kind acc', v.tasks[i]? = some ⟨.ready b' (some kind), acc'⟩ → b' = b ∧ acc' = acc := by
  have h : u.Sound limit := hr.sound ⟨rfl, Nat.zero_le _, by simp⟩
  refine ⟨h.used, h.limit, fun hgone => ?_, fun t ht b hb => ?_, ?_⟩
  · rw [h.used, List.sum_eq_zero]
    simp only [List.mem_map]
    rintro _ ⟨t, ht, rfl⟩
    simp only [IngressTask.leases, hgone t ht]
  · have hok := h.tasks t ht
    exact ⟨(hok.buffers b hb).1, (hok.buffers b hb).2, hok.contents b hb⟩
  · intro i b last acc c ht hc v hv b' kind acc' hend
    have hs := (h.step (.command i _ c ht)).1
    have hget : (u.tasks.set i (IngressTask.start u.used ⟨.ready b last, acc⟩ c).1)[i]? =
        some (IngressTask.start u.used ⟨.ready b last, acc⟩ c).1 :=
      List.getElem?_set_self (List.getElem?_eq_some_iff.1 ht).1
    exact failed_append hs hget (IngressTask.start_appending hc) hv hend

inductive IngressOp
  | create (capacity : Nat)
  | command (i : Nat) (c : Command)
  | advance (i : Nat) (granted : Option Nat)

/-- What the allocator is about to be asked for. -/
def Phase.asked : Phase → Option Nat
  | .creating (.leased capacity) => some capacity
  | .growing _ _ _ (.leased capacity) => some capacity
  | _ => none

def Ingress.apply (limit : Nat) (s : Ingress) : IngressOp → Ingress
  | .create capacity => ⟨s.used, s.tasks ++ [⟨.creating (.requested capacity), []⟩]⟩
  | .command i c => match s.tasks[i]? with
    | some t => ⟨(t.start s.used c).2, s.tasks.set i (t.start s.used c).1⟩
    | none => s
  | .advance i granted => match s.tasks[i]? with
    | some t =>
      if ∀ capacity ∈ t.phase.asked, ∀ actual ∈ granted, capacity ≤ actual then
        ⟨(t.advance limit s.used granted).2, s.tasks.set i (t.advance limit s.used granted).1⟩
      else s
    | none => s

theorem Ingress.apply_runs (limit : Nat) (s : Ingress) (op : IngressOp) :
    Runs limit s (s.apply limit op) := by
  cases op with
  | create capacity => exact .single (.create capacity)
  | command i c =>
    simp only [apply]
    split
    · next t ht => exact .single (.command i t c ht)
    · exact .refl
  | advance i granted =>
    simp only [apply]
    split
    · next t ht =>
      split
      · next hasked =>
        refine .single (.advance i t granted ht fun capacity actual hg hp => ?_)
        refine hasked capacity ?_ actual hg
        rcases hp with hp | ⟨_, _, _, hp⟩
        · rw [hp]
          rfl
        · rw [hp]
          rfl
      · exact .refl
    · exact .refl

def Ingress.applyAll (limit : Nat) (s : Ingress) (ops : List IngressOp) : Ingress :=
  ops.foldl (Ingress.apply limit) s

theorem Ingress.applyAll_runs (limit : Nat) (ops : List IngressOp) (s : Ingress) :
    Runs limit s (s.applyAll limit ops) := by
  induction ops generalizing s with
  | nil => exact .refl
  | cons op ops ih => exact (s.apply_runs limit op).trans (ih (s.apply limit op))

/-- The first request's buffer of two bytes is replaced by one of five for a chunk of three; a
second request then takes ten of the sixteen bytes. -/
def regrownIngress : Ingress := Ingress.applyAll 16 ⟨0, []⟩
  [.create 2, .advance 0 none, .advance 0 (some 2), .command 0 (.append [1, 2, 3] 100),
    .advance 0 none, .advance 0 (some 5), .advance 0 none, .advance 0 none, .advance 0 none,
    .create 10, .advance 1 none, .advance 1 (some 10)]

/-- There is no room for another regrowth of the first one. -/
def refusedIngress : Ingress := regrownIngress.applyAll 16
  [.command 0 (.append [4, 5, 6] 100), .advance 0 none, .advance 0 none]

def droppedIngress : Ingress := refusedIngress.applyAll 16 [.command 1 .drop]

theorem body_budget_exact_regrown :
    refusedIngress.used = 15 ∧ droppedIngress.used = 5 ∧
    droppedIngress.used = (droppedIngress.tasks.map IngressTask.leases).sum ∧
    (∀ t ∈ droppedIngress.tasks, ∀ b ∈ t.phase.buffers, b.data.length ≤ b.capacity ∧
      b.capacity ≤ b.lease ∧ b.data = t.accepted.flatten) ∧
    refusedIngress.tasks[0]? = some ⟨.ready ⟨[1, 2, 3], 5, 5⟩ (some .memoryBudget), [[1, 2, 3]]⟩ ∧
    ∀ b kind acc, refusedIngress.tasks[0]? = some ⟨.ready b (some kind), acc⟩ →
      b = ⟨[1, 2, 3], 5, 5⟩ ∧ acc = [[1, 2, 3]] := by
  have hregrown : Runs 16 ⟨0, []⟩ regrownIngress := Ingress.applyAll_runs _ _ _
  have hdropped : Runs 16 ⟨0, []⟩ droppedIngress :=
    (hregrown.trans (Ingress.applyAll_runs _ _ _)).trans (Ingress.applyAll_runs _ _ _)
  obtain ⟨hused, -, -, hcontents, -⟩ := body_budget_exact hdropped
  have hready : regrownIngress.tasks[0]? = some ⟨.ready ⟨[1, 2, 3], 5, 5⟩ none, [[1, 2, 3]]⟩ := rfl
  have hrun : Relation.ReflTransGen (fun x y => IngressStep 16 x y ∧ Busy 0 x)
      (regrownIngress.apply 16 (.command 0 (.append [4, 5, 6] 100))) refusedIngress := by
    -- the append stops at its first operation on the budget
    refine .tail (.single ⟨.advance 0 _ none rfl ?_, _, rfl, ?_⟩)
      ⟨.advance 0 _ none rfl ?_, _, rfl, ?_⟩
    all_goals nofun
  exact ⟨rfl, rfl, hused, hcontents, rfl, (body_budget_exact hregrown).2.2.2.2 0 _ _ _
    (.append [4, 5, 6] 100) hready (by simp) _ hrun⟩

end CcSwitchRouter.RequestBody
