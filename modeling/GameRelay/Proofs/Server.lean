import GameRelay.Proofs.Relay.Journal
import GameRelay.Proofs.Relay.Sessions
import GameRelay.Server.Session

/-!
# What a server does to its relay

Whatever happens to a server comes down to steps of sessions, one after the other: clients are let
in, frames are handled, writers run, and each session ends once. So what holds of sessions behind
an endpoint holds of the relay of a server and of the clients that it has.
-/

set_option autoImplicit false
set_option relaxedAutoImplicit false

namespace GameRelay

def Event.isVisit : Event → Bool
  | .clientConnected _ | .clientDisconnected _ => true
  | _ => false

namespace Relay

/-- Two relays are the same, but for reports of clients that come and go. -/
structure Mirrors (r s : Relay) : Prop where
  rest : r.OnlyReports s
  journal : s.journal.filter (!·.isVisit) = r.journal.filter (!·.isVisit)

variable {r s : Relay}

private theorem mirrors_refl (r : Relay) : r.Mirrors r := ⟨⟨rfl, rfl, rfl⟩, rfl⟩

private theorem Mirrors.trans {next : Relay} (first : r.Mirrors s) (second : s.Mirrors next) :
    r.Mirrors next where
  rest := by
    obtain ⟨peers, rooms, codes⟩ := first.rest
    obtain ⟨peers', rooms', codes'⟩ := second.rest
    exact ⟨peers'.trans peers, rooms'.trans rooms, codes'.trans codes⟩
  journal := second.journal.trans first.journal

private theorem mirrors_noted (r : Relay) {e : Event} (visit : e.isVisit) :
    r.Mirrors (r.noted e) where
  rest := ⟨rfl, rfl, rfl⟩
  journal := List.filter_cons_of_neg (by simp [visit])

private theorem Mirrors.after (mirrors : r.Mirrors s) (call : Call) :
    (r.after call).Mirrors (s.after call) := by
  rw [(mirrors_refl r).rest.after_eq, mirrors.rest.after_eq]
  refine ⟨⟨rfl, rfl, rfl⟩, ?_⟩
  simp only [recalling, List.filter_append, mirrors.journal]

private theorem Mirrors.afterAll (mirrors : r.Mirrors s) (calls : List Call) :
    (r.afterAll calls).Mirrors (s.afterAll calls) := by
  induction calls generalizing r s with
  | nil => exact mirrors
  | cons call rest ih => exact ih (mirrors.after call)

end Relay

inductive Happening
  | connect (id : String) (capacity : Int) (path : String)
  | receive (h : Handle) (frames : List Frame)
  | hangUp (h : Handle)
  | stall (h : Handle)
  | resume (h : Handle)
  | breakSocket (h : Handle)
  | refill (codes : CodeSource)

namespace Server

def after (s : Server) : Happening → Server
  | .connect id capacity path => s.connect id capacity path
  | .receive h frames => s.receive h frames
  | .hangUp h => s.hangUp h
  | .stall h => s.stall h
  | .resume h => s.resume h
  | .breakSocket h => s.breakSocket h
  | .refill codes => { s with relay := { s.relay with codes } }

def afterAll (s : Server) (happenings : List Happening) : Server := happenings.foldl after s

/-- Whoever is let in has an id of its own. -/
def Possible (s : Server) : Happening → Prop
  | .connect id _ path => isRelayPath path → id ∉ s.relay.known.map s.relay.idOf
  | _ => True

instance (s : Server) : (happening : Happening) → Decidable (s.Possible happening)
  | .connect id _ path =>
    inferInstanceAs (Decidable (isRelayPath path → id ∉ s.relay.known.map s.relay.idOf))
  | .receive .. | .hangUp _ | .stall _ | .resume _ | .breakSocket _ | .refill _ =>
    inferInstanceAs (Decidable True)

def AllPossible (s : Server) : List Happening → Prop
  | [] => True
  | happening :: rest => s.Possible happening ∧ AllPossible (s.after happening) rest

instance decidableAllPossible (s : Server) :
    (happenings : List Happening) → Decidable (s.AllPossible happenings)
  | [] => inferInstanceAs (Decidable True)
  | happening :: rest =>
    have := decidableAllPossible (s.after happening) rest
    inferInstanceAs (Decidable (s.Possible happening ∧ (s.after happening).AllPossible rest))

/-- A server is where some steps of sessions lead: it has their relay, and of its clients those are
live whose sessions have begun and not ended. -/
structure Tracks (s : Server) (codes : CodeSource) (steps : List Step) : Prop where
  disciplined : (Sessions.initial codes).Disciplined steps
  relay : ((Sessions.initial codes).afterAll steps).relay.Mirrors s.relay
  handles : Table.keys s.clients = List.range s.clients.length
  known : ∀ h ∈ ((Sessions.initial codes).afterAll steps).relay.known, h ∈ Table.keys s.clients
  live : ∀ h, (s.live? h).isSome ↔
    h ∈ ((Sessions.initial codes).afterAll steps).relay.known ∧
      h ∉ ((Sessions.initial codes).afterAll steps).finished

/-- Wherever a server is, some further steps of sessions lead to where it is next. -/
def Follows (s next : Server) : Prop :=
  ∀ codes steps, s.Tracks codes steps → ∃ more, next.Tracks codes (steps ++ more)

section Steps

variable {s next : Server} {codes : CodeSource} {steps : List Step} {step : Step}

private theorem Tracks.concat (tracks : s.Tracks codes steps)
    (allowed : ((Sessions.initial codes).afterAll steps).Allowed step)
    (relay : (s.relay.afterAll step.calls).Mirrors next.relay)
    (handles : Table.keys next.clients = List.range next.clients.length)
    (known : ∀ h, h ∈ Table.keys s.clients ∨ h ∈ step.calls.flatMap Call.newcomers →
      h ∈ Table.keys next.clients)
    (live : ∀ h, (next.live? h).isSome ↔
      ((s.live? h).isSome ∨ h ∈ step.calls.flatMap Call.newcomers) ∧ h ∉ step.leavers) :
    next.Tracks codes (steps ++ [step]) := by
  have matched := Sessions.matched_afterAll codes steps tracks.disciplined
  have proper := Sessions.proper_of_allowed matched.settled allowed
  have disciplined : (Sessions.initial codes).Disciplined (steps ++ [step]) :=
    (Sessions.disciplined_append _ steps [step]).mpr ⟨tracks.disciplined, allowed, trivial⟩
  have mirrors := (tracks.relay.afterAll step.calls).trans relay
  have present := tracks.known
  have before := tracks.live
  refine ⟨disciplined, ?_, handles, ?_, ?_⟩
  all_goals rw [Sessions.afterAll_concat]
  all_goals generalize (Sessions.initial codes).afterAll steps = t at *
  · exact mirrors
  · intro h member
    have member : h ∈ (t.relay.afterAll step.calls).known := member
    rw [Relay.known_afterAll matched.settled proper, List.mem_append] at member
    exact known h (member.imp_left (present h))
  · intro h
    have fresh : h ∈ step.calls.flatMap Call.newcomers → h ∉ t.finished := by
      intro newcomer past
      cases step with
      | enter k id capacity =>
        obtain rfl : h = k := by simpa [Step.calls] using newcomer
        exact allowed.1 (matched.past h past)
      | _ => simp [Step.calls] at newcomer
    change _ ↔ h ∈ (t.relay.afterAll step.calls).known ∧ h ∉ step.leavers ++ t.finished
    rw [Relay.known_afterAll matched.settled proper, live, before, List.mem_append, List.mem_append]
    tauto

private theorem follows_refl (s : Server) : s.Follows s := by
  intro codes steps tracks
  exact ⟨[], (List.append_nil steps).symm ▸ tracks⟩

private theorem Follows.trans {last : Server} (first : s.Follows next)
    (second : next.Follows last) : s.Follows last := by
  intro codes steps tracks
  obtain ⟨more, tracks⟩ := first codes steps tracks
  obtain ⟨others, tracks⟩ := second codes _ tracks
  exact ⟨more ++ others, List.append_assoc steps more others ▸ tracks⟩

/-- A server has the same clients, and of these the same are live. -/
private structure SameClients (s next : Server) : Prop where
  handles : Table.keys next.clients = Table.keys s.clients
  live : ∀ h, (next.live? h).isSome = (s.live? h).isSome

private theorem Tracks.handles_of_keys (tracks : s.Tracks codes steps)
    (same : Table.keys next.clients = Table.keys s.clients) :
    Table.keys next.clients = List.range next.clients.length := by
  have length : next.clients.length = s.clients.length := by
    simpa [Table.keys] using congrArg List.length same
  rw [same, length]
  exact tracks.handles

private theorem sameClients_of_eq (same : next.clients = s.clients) : s.SameClients next := by
  refine ⟨congrArg Table.keys same, fun h => ?_⟩
  rw [live?, live?, same]

private theorem SameClients.trans {last : Server} (first : s.SameClients next)
    (second : next.SameClients last) : s.SameClients last :=
  ⟨second.handles.trans first.handles, fun h => (second.live h).trans (first.live h)⟩

private theorem follows_of_reports (same : s.SameClients next)
    (relay : s.relay.Mirrors next.relay) : s.Follows next := by
  intro codes steps tracks
  refine ⟨[], ?_⟩
  rw [List.append_nil]
  refine ⟨tracks.disciplined, tracks.relay.trans relay, tracks.handles_of_keys same.handles, ?_, ?_⟩
  · rw [same.handles]
    exact tracks.known
  · intro h
    rw [same.live]
    exact tracks.live h

private theorem follows_of_step (step : Step) (same : s.SameClients next)
    (relay : (s.relay.afterAll step.calls).Mirrors next.relay)
    (nobody : step.calls.flatMap Call.newcomers = []) (endless : step.leavers = [])
    (allowed : ∀ codes steps, s.Tracks codes steps →
      ((Sessions.initial codes).afterAll steps).Allowed step) : s.Follows next := by
  intro codes steps tracks
  refine ⟨[step], tracks.concat (allowed codes steps tracks) relay
    (tracks.handles_of_keys same.handles) ?_ ?_⟩
  · intro h
    rw [nobody, same.handles]
    exact fun member => member.resolve_right List.not_mem_nil
  · intro h
    rw [nobody, endless, same.live]
    simp

end Steps

variable {s : Server}

private theorem act_call (s : Server) (call : Call) :
    (s.act call.action).2 = { s with relay := s.relay.after call } := by
  unfold act Relay.after
  cases call.action.run s.relay <;> rfl

private theorem find?_of_live? {h : Handle} {c : Client} (live : s.live? h = some c) :
    Table.find? s.clients h = some c ∧ c.hasEnded = false := by
  obtain ⟨found, going⟩ := Option.filter_eq_some_iff.mp live
  exact ⟨found, by simpa using going⟩

private theorem isSome_live?_setClient (s : Server) (h k : Handle) (c : Client) :
    ((s.setClient h c).live? k).isSome = if k = h then !c.hasEnded else (s.live? k).isSome := by
  rw [live?, setClient, Table.find?_put]
  split
  · cases ended : c.hasEnded <;> simp [ended]
  · rfl

private theorem keys_setClient_of_live {h : Handle} {c : Client} (live : s.live? h = some c)
    (new : Client) : Table.keys (s.setClient h new).clients = Table.keys s.clients :=
  Table.keys_put_of_mem new (Table.mem_keys_of_mem (Table.mem_of_find? (find?_of_live? live).1))

private theorem sameClients_setClient {h : Handle} {c : Client} (live : s.live? h = some c)
    {new : Client} (going : new.hasEnded = false) : s.SameClients (s.setClient h new) := by
  refine ⟨keys_setClient_of_live live new, fun k => ?_⟩
  rw [isSome_live?_setClient, going]
  split
  · subst k
    rw [live]
    rfl
  · rfl

private theorem hasEnded_afterRun (c : Client) (ending : Writer.Ending) :
    (c.afterRun ending).hasEnded = c.hasEnded := by
  cases ending <;> rfl

private theorem follows_of_live? {f : Client → Server} (h : Handle)
    (each : ∀ c, s.live? h = some c → s.Follows (f c)) :
    s.Follows (match s.live? h with
      | none => s
      | some c => f c) := by
  cases live : s.live? h with
  | none => exact follows_refl s
  | some c => exact each c live

theorem follows_write (s : Server) (h : Handle) : s.Follows (s.write h) := by
  refine follows_of_live? h fun c live => ?_
  cases c.isWriting with
  | false => exact follows_refl s
  | true =>
    have acts : s.act (Relay.runWriter h c.socket c.held) =
        (.ok (Writer.run c.socket 0 (Writer.queue c.held (s.relay.peer h).outbox.items)),
          { s with relay := s.relay.after (.write h c.socket c.held) }) := by
      rw [act, Relay.run_runWriter, Relay.after_write]
    simp only [if_true, acts]
    refine follows_of_step (.write h c.socket c.held) ?_ (Relay.mirrors_refl _) rfl rfl ?_
    · have going (ending : Writer.Ending) : (c.afterRun ending).hasEnded = false :=
        (hasEnded_afterRun c ending).trans (find?_of_live? live).2
      exact (sameClients_setClient live (going _)).trans (sameClients_of_eq rfl)
    · intro codes steps tracks
      exact ((tracks.live h).mp (by rw [live]; rfl)).1

theorem follows_settle (s : Server) (awake : List Handle) : s.Follows (s.settle awake) := by
  induction awake generalizing s with
  | nil => exact follows_refl s
  | cons h rest ih => exact (follows_write s h).trans (ih (s.write h))

/-- Frames are handled one after the other, the one that cannot be handled included. -/
theorem follows_handleAll (s : Server) {h : Handle} (live : (s.live? h).isSome)
    (awake : List Handle) (frames : List Frame) :
    s.Follows (s.handleAll h awake frames).1 ∧
      (s.handleAll h awake frames).1.clients = s.clients := by
  induction frames generalizing s awake with
  | nil => exact ⟨follows_refl s, rfl⟩
  | cons frame rest ih =>
    have acts : (s.act (Relay.handle h frame)).2 =
        { s with relay := s.relay.after (.frame h frame) } := act_call s (.frame h frame)
    have one : s.Follows { s with relay := s.relay.after (.frame h frame) } := by
      refine follows_of_step (.frame h frame) (sameClients_of_eq rfl) (Relay.mirrors_refl _) rfl rfl
        ?_
      intro codes steps tracks
      exact (tracks.live h).mp live
    rw [handleAll]
    generalize s.act (Relay.handle h frame) = acted at acts ⊢
    obtain ⟨result, next⟩ := acted
    obtain rfl : next = { s with relay := s.relay.after (.frame h frame) } := acts
    cases result with
    | error fault => exact ⟨one, rfl⟩
    | ok _ =>
      obtain ⟨others, same⟩ := ih { s with relay := s.relay.after (.frame h frame) } live
        (awake ++ woken s.relay (s.relay.after (.frame h frame))
          (circle (s.relay.after (.frame h frame)) h))
      exact ⟨one.trans others, same⟩

private theorem follows_reportGone (s : Server) (h : Handle) : s.Follows (s.reportGone h) :=
  follows_of_reports (sameClients_of_eq rfl) (Relay.mirrors_noted _ rfl)

/-- The end of a session is one step, and the writers that were woken come after it. -/
theorem follows_finish {h : Handle} {c : Client} (live : s.live? h = some c)
    (awake : List Handle) (fault : Option Fault) : s.Follows (s.finish h c awake fault) := by
  have acts : (s.act do
      Relay.detach h
      Relay.disconnect h).2 = { s with relay := s.relay.afterAll (Step.leave h).calls } :=
    act_call { s with relay := s.relay.after (.detach h) } (.disconnect h)
  have ends (new : Client) (gone : new.hasEnded = true) :
      s.Follows ({ s with relay := s.relay.afterAll (Step.leave h).calls }.setClient h new) := by
    intro codes steps tracks
    have same := keys_setClient_of_live live new
    refine ⟨[.leave h], tracks.concat ((tracks.live h).mp (by rw [live]; rfl))
      (Relay.mirrors_refl _) (tracks.handles_of_keys same) ?_ ?_⟩
    · intro k member
      exact same.symm ▸ member.resolve_right List.not_mem_nil
    · intro k
      have kept := isSome_live?_setClient { s with relay := s.relay.afterAll (Step.leave h).calls }
        h k new
      rw [kept, gone]
      by_cases own : k = h
      · simp [own, Step.leavers]
      · simp only [own, if_false, Step.leavers, List.mem_singleton, not_false_iff, and_true]
        exact (or_iff_left List.not_mem_nil).symm
  rw [finish]
  generalize (s.act do
    Relay.detach h
    Relay.disconnect h) = acted at acts ⊢
  obtain ⟨result, next⟩ := acted
  obtain rfl : next = { s with relay := s.relay.afterAll (Step.leave h).calls } := acts
  dsimp only
  split
  · exact ((ends _ rfl).trans (follows_settle _ _)).trans (follows_reportGone _ h)
  · exact ((ends _ rfl).trans (follows_reportGone _ h)).trans (follows_settle _ _)

private theorem Tracks.nextHandle_not_mem {codes : CodeSource} {steps : List Step}
    (tracks : s.Tracks codes steps) : s.nextHandle ∉ Table.keys s.clients := by
  rw [tracks.handles, List.mem_range]
  exact Nat.lt_irrefl _

private theorem Tracks.keys_setClient_next {codes : CodeSource} {steps : List Step}
    (tracks : s.Tracks codes steps) (c : Client) :
    Table.keys (s.setClient s.nextHandle c).clients = Table.keys s.clients ++ [s.nextHandle] :=
  Table.keys_put_of_not_mem c tracks.nextHandle_not_mem

private theorem Tracks.handles_setClient_next {codes : CodeSource} {steps : List Step}
    (tracks : s.Tracks codes steps) (c : Client) :
    Table.keys (s.setClient s.nextHandle c).clients =
      List.range (s.setClient s.nextHandle c).clients.length := by
  have keys := tracks.keys_setClient_next c
  have length : (s.setClient s.nextHandle c).clients.length = s.nextHandle + 1 := by
    simpa [Table.keys, nextHandle] using congrArg List.length keys
  rw [keys, length, tracks.handles, List.range_succ]
  rfl

private theorem Tracks.isFresh {codes : CodeSource} {steps : List Step}
    (tracks : s.Tracks codes steps) {id : String}
    (own : id ∉ s.relay.known.map s.relay.idOf) (capacity : Int) :
    ((Sessions.initial codes).afterAll steps).Allowed (.enter s.nextHandle id capacity) := by
  have peers := tracks.relay.rest.1
  have known : s.relay.known = ((Sessions.initial codes).afterAll steps).relay.known :=
    congrArg Table.keys peers
  have ids : s.relay.idOf = ((Sessions.initial codes).afterAll steps).relay.idOf := by
    funext h
    rw [Relay.idOf, Relay.idOf, Relay.peer, peers, Relay.peer]
  rw [known, ids] at own
  exact ⟨fun member => tracks.nextHandle_not_mem (tracks.known _ member), own⟩

/-- A client at a path of the relay begins a session. All others are turned away. -/
theorem follows_connect (s : Server) (id : String) (capacity : Int) (path : String)
    (own : isRelayPath path → id ∉ s.relay.known.map s.relay.idOf) :
    s.Follows (s.connect id capacity path) := by
  intro codes steps tracks
  have grows (c : Client) (h : Handle) (old : h ∈ Table.keys s.clients ∨ h = s.nextHandle) :
      h ∈ Table.keys (s.setClient s.nextHandle c).clients := by
    rw [tracks.keys_setClient_next c, List.mem_append, List.mem_singleton]
    exact old
  rw [connect]
  split
  · refine ⟨[.enter s.nextHandle id capacity], tracks.concat (tracks.isFresh (own ‹_›) capacity)
      (Relay.mirrors_noted _ rfl) (tracks.handles_setClient_next .fresh) ?_ ?_⟩
    · intro h member
      exact grows .fresh h (member.imp_right List.mem_singleton.mp)
    · intro h
      refine (Iff.of_eq (congrArg (· = true)
        (isSome_live?_setClient s s.nextHandle h .fresh))).trans ?_
      by_cases own : h = s.nextHandle
      · simp [own, Client.fresh, Step.calls, Step.leavers]
      · simp [own, Step.calls, Step.leavers]
  · refine ⟨[], ?_⟩
    rw [List.append_nil]
    refine ⟨tracks.disciplined, tracks.relay, tracks.handles_setClient_next .refused, ?_, ?_⟩
    · intro h member
      exact grows .refused h (.inl (tracks.known h member))
    · intro h
      refine (Iff.of_eq (congrArg (· = true)
        (isSome_live?_setClient s s.nextHandle h .refused))).trans ?_
      by_cases own : h = s.nextHandle
      · rw [if_pos own]
        refine iff_of_false (by simp [Client.refused]) fun going => ?_
        exact tracks.nextHandle_not_mem (own ▸ tracks.known h going.1)
      · rw [if_neg own]
        exact tracks.live h

private theorem follows_setClient {h : Handle} {c : Client} (live : s.live? h = some c)
    (new : Client) (going : new.hasEnded = false) : s.Follows (s.setClient h new) :=
  follows_of_reports (sameClients_setClient live going) (Relay.mirrors_refl _)

theorem follows_receive (s : Server) (h : Handle) (frames : List Frame) :
    s.Follows (s.receive h frames) := by
  refine follows_of_live? h fun c live => ?_
  obtain ⟨handled, same⟩ := follows_handleAll s (by rw [live]; rfl) [] frames
  generalize s.handleAll h [] frames = outcome at handled same ⊢
  obtain ⟨next, awake, fault⟩ := outcome
  cases fault with
  | none => exact handled.trans (follows_settle next awake)
  | some fault =>
    have going : next.live? h = some c := by
      rw [live?, same]
      exact live
    exact handled.trans (follows_finish going awake (some fault))

theorem follows_after (s : Server) {happening : Happening} (possible : s.Possible happening) :
    s.Follows (s.after happening) := by
  cases happening with
  | connect id capacity path => exact follows_connect s id capacity path possible
  | receive h frames => exact follows_receive s h frames
  | hangUp h => exact follows_of_live? h fun c live => follows_finish live [] none
  | stall h =>
    exact follows_of_live? h fun c live => follows_setClient live _ (find?_of_live? live).2
  | resume h =>
    refine follows_of_live? h fun c live => ?_
    have resumes := follows_setClient live { c with isStalled := false } (find?_of_live? live).2
    exact resumes.trans (follows_write _ h)
  | breakSocket h =>
    exact follows_of_live? h fun c live => follows_setClient live _ (find?_of_live? live).2
  | refill codes =>
    exact follows_of_step (.refill codes) (sameClients_of_eq rfl) (Relay.mirrors_refl _) rfl rfl
      fun _ _ _ => trivial

private theorem follows_afterAll {s : Server} {happenings : List Happening}
    (possible : s.AllPossible happenings) : s.Follows (s.afterAll happenings) := by
  induction happenings generalizing s with
  | nil => exact follows_refl s
  | cons happening rest ih => exact (follows_after s possible.1).trans (ih possible.2)

private theorem tracks_initial (codes : CodeSource) : (initial codes).Tracks codes [] where
  disciplined := trivial
  relay := Relay.mirrors_refl _
  handles := rfl
  known _ member := nomatch member
  live _ := iff_of_false nofun fun going => nomatch going.1

/-- Whatever happens to a server, it is where some steps of sessions lead. -/
theorem tracks_afterAll (codes : CodeSource) (happenings : List Happening)
    (possible : (initial codes).AllPossible happenings) :
    ∃ steps, ((initial codes).afterAll happenings).Tracks codes steps := by
  obtain ⟨steps, tracks⟩ := follows_afterAll possible codes [] (tracks_initial codes)
  exact ⟨steps, tracks⟩

/-- Every live room of a server has a host that is a live client, and every live client that hosts
has its room. -/
theorem rooms_of_clients (codes : CodeSource) (happenings : List Happening)
    (possible : (initial codes).AllPossible happenings) :
    let s := (initial codes).afterAll happenings
    (∀ entry ∈ s.relay.rooms, (s.live? entry.2.host).isSome) ∧
      ∀ h, (s.live? h).isSome → (s.relay.peer h).role = .host →
        ∃ room, s.relay.room? (s.relay.peer h).room = some room ∧ room.host = h := by
  intro s
  obtain ⟨steps, tracks⟩ := tracks_afterAll codes happenings possible
  obtain ⟨peers, rooms, _⟩ := tracks.relay.rest
  have matched := Sessions.matched_afterAll codes steps tracks.disciplined
  have accounted := Sessions.accounted_of_matched matched
  have live := tracks.live
  generalize (Sessions.initial codes).afterAll steps = t at *
  have peer (h : Handle) : s.relay.peer h = t.relay.peer h := by
    rw [Relay.peer, Relay.peer, peers]
  refine ⟨?_, ?_⟩
  · intro entry member
    have settled := matched.settled
    have found := Table.find?_of_mem settled.keys (rooms ▸ member)
    refine (live _).mpr ⟨(settled.fits found).present _ List.mem_cons_self, fun past => ?_⟩
    exact accounted.gone _ past (settled.mem_housed.mpr ⟨_, _, found, List.mem_cons_self⟩)
  · intro h going role
    rw [peer] at role ⊢
    obtain ⟨room, own, host⟩ := accounted.hosting h ((live h).mp going).2 role
    have same (code : Option String) : s.relay.room? code = t.relay.room? code := by
      cases code with
      | none => rfl
      | some code => rw [Relay.room?, Relay.room?, rooms]
    exact ⟨room, (same _).trans own, host⟩

example : (initial (.listed ["a"])).AllPossible
    [.connect "h" 4 "/ws", .receive 0 [.text "\x7b\"type\":\"host\"\x7d"],
      .connect "p" 4 "/nowhere", .connect "p" 4 "/", .hangUp 0, .refill (.listed ["b"])] := by
  decide +kernel

end Server

end GameRelay
