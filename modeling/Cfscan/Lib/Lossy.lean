import Mathlib.Logic.Function.Basic

/-!
# Clients and a server over a lossy channel

Any number of clients send requests to one server and take in its replies. The channel remembers
every message that was ever sent, and the scheduler chooses what arrives next, so that a message
can arrive once, again, late, out of order or never.

`Exchange` says what the parties do and `Upkeep` what has to be shown of one act of each of them;
`Upkeep.play` makes an invariant of it: what the clients sent, what the replies tell and what the
clients hold, each relative to a server that only grows.

The server is one state machine with atomic steps, and replies go to the client they are for, if
they arrive. Nothing here is about progress: a run in which no message ever arrives is one of the
runs.
-/

set_option autoImplicit false

namespace Cfscan.Lib

/-- `π` is what a client holds, `σ` what the server holds, `δ` what the server meets outside when
it answers, and `ε` what happens at the server without a client. -/
structure Exchange (ι π σ δ ε μ ρ : Type) where
  request : ι → π → Option μ
  receive : ι → π → ρ → π
  serve : δ → σ → μ → ρ × σ
  internal : ε → σ → σ

namespace Lossy

structure World (ι π σ μ ρ : Type) where
  server : σ
  clients : ι → π
  requests : List (ι × μ)
  replies : List (ι × ρ)

/-- What the scheduler can let happen. A message arrives by its number among the messages sent. -/
inductive Act (ι δ ε : Type) where
  | send (client : ι)
  | serve (number : Nat) (outside : δ)
  | receive (number : Nat)
  | internal (event : ε)

variable {ι π σ δ ε μ ρ : Type}

def initial (server : σ) (clients : ι → π) : World ι π σ μ ρ := ⟨server, clients, [], []⟩

variable [DecidableEq ι]

def act (x : Exchange ι π σ δ ε μ ρ) (w : World ι π σ μ ρ) : Act ι δ ε → World ι π σ μ ρ
  | .send client =>
    match x.request client (w.clients client) with
    | none => w
    | some message => { w with requests := w.requests ++ [(client, message)] }
  | .serve number outside =>
    match w.requests[number]? with
    | none => w
    | some (client, message) =>
      let answer := x.serve outside w.server message
      { w with server := answer.2, replies := w.replies ++ [(client, answer.1)] }
  | .receive number =>
    match w.replies[number]? with
    | none => w
    | some (client, reply) =>
      { w with
        clients := Function.update w.clients client (x.receive client (w.clients client) reply) }
  | .internal event => { w with server := x.internal event w.server }

def play (x : Exchange ι π σ δ ε μ ρ) (w : World ι π σ μ ρ) (acts : List (Act ι δ ε)) :
    World ι π σ μ ρ :=
  acts.foldl (act x) w

/-! ## The invariant

What a reply tells and what a client holds must stay true while the server grows, since
either can be older than the server by any number of steps; `told_grows` and `holds_grows`
ask for that. -/

/-- What to show of an exchange. `good` is the invariant of the server and `grows` what a server
may become; `sent`, `told` and `holds` are about one request, one reply and one client. -/
structure Upkeep (x : Exchange ι π σ δ ε μ ρ) (good : σ → Prop) (grows : σ → σ → Prop)
    (sent : ι → μ → Prop) (told : σ → ι → ρ → Prop) (holds : σ → ι → π → Prop) : Prop where
  request : ∀ s client p message, holds s client p → x.request client p = some message →
    sent client message
  serve : ∀ outside s client message, good s → sent client message →
    good (x.serve outside s message).2 ∧ grows s (x.serve outside s message).2 ∧
      told (x.serve outside s message).2 client (x.serve outside s message).1
  internal : ∀ event s, good s → good (x.internal event s) ∧ grows s (x.internal event s)
  receive : ∀ s client p reply, good s → holds s client p → told s client reply →
    holds s client (x.receive client p reply)
  told_grows : ∀ s s' client reply, grows s s' → told s client reply → told s' client reply
  holds_grows : ∀ s s' client p, grows s s' → holds s client p → holds s' client p

/-- The invariant of a world. -/
structure Kept (good : σ → Prop) (sent : ι → μ → Prop) (told : σ → ι → ρ → Prop)
    (holds : σ → ι → π → Prop) (w : World ι π σ μ ρ) : Prop where
  good : good w.server
  sent : ∀ m ∈ w.requests, sent m.1 m.2
  told : ∀ m ∈ w.replies, told w.server m.1 m.2
  holds : ∀ client, holds w.server client (w.clients client)

variable {x : Exchange ι π σ δ ε μ ρ} {good : σ → Prop} {grows : σ → σ → Prop}
  {sent : ι → μ → Prop} {told : σ → ι → ρ → Prop} {holds : σ → ι → π → Prop}
  {w : World ι π σ μ ρ}

omit [DecidableEq ι] in
theorem Kept.initial {server : σ} {clients : ι → π} (hgood : good server)
    (hholds : ∀ client, holds server client (clients client)) :
    Kept good sent told holds (initial server clients : World ι π σ μ ρ) :=
  ⟨hgood, fun _ h => absurd h List.not_mem_nil, fun _ h => absurd h List.not_mem_nil, hholds⟩

/-- One act keeps the invariant. -/
theorem Upkeep.act (h : Upkeep x good grows sent told holds) (hw : Kept good sent told holds w)
    (a : Act ι δ ε) : Kept good sent told holds (act x w a) := by
  cases a with
  | send client =>
    unfold Lossy.act
    dsimp only
    split
    · exact hw
    · rename_i message hmessage
      refine ⟨hw.good, fun m hm => ?_, hw.told, hw.holds⟩
      rcases List.mem_append.mp hm with hold | hnew
      · exact hw.sent m hold
      · rw [List.mem_singleton.mp hnew]
        exact h.request _ _ _ _ (hw.holds client) hmessage
  | serve number outside =>
    unfold Lossy.act
    dsimp only
    split
    · exact hw
    · rename_i client message harrived
      -- the older replies and the clients are brought up to the server as it is now
      obtain ⟨hgood, hgrows, htold⟩ :=
        h.serve outside _ _ _ hw.good (hw.sent _ (List.mem_of_getElem? harrived))
      refine ⟨hgood, hw.sent, fun m hm => ?_, fun client => ?_⟩
      · rcases List.mem_append.mp hm with hold | hnew
        · exact h.told_grows _ _ _ _ hgrows (hw.told m hold)
        · rw [List.mem_singleton.mp hnew]
          exact htold
      · exact h.holds_grows _ _ _ _ hgrows (hw.holds client)
  | receive number =>
    unfold Lossy.act
    dsimp only
    split
    · exact hw
    · rename_i client reply harrived
      refine ⟨hw.good, hw.sent, hw.told, fun other => ?_⟩
      by_cases heq : other = client
      · subst heq
        dsimp only
        rw [Function.update_self]
        exact h.receive _ _ _ _ hw.good (hw.holds other)
          (hw.told _ (List.mem_of_getElem? harrived))
      · dsimp only
        rw [Function.update_of_ne heq]
        exact hw.holds other
  | internal event =>
    obtain ⟨hgood, hgrows⟩ := h.internal event _ hw.good
    exact ⟨hgood, hw.sent, fun m hm => h.told_grows _ _ _ _ hgrows (hw.told m hm),
      fun client => h.holds_grows _ _ _ _ hgrows (hw.holds client)⟩

/-- **The invariant holds in every world reached.** -/
theorem Upkeep.play (h : Upkeep x good grows sent told holds) (hw : Kept good sent told holds w)
    (acts : List (Act ι δ ε)) : Kept good sent told holds (play x w acts) := by
  induction acts generalizing w with
  | nil => exact hw
  | cons a acts ih => exact ih (h.act hw a)

end Lossy

end Cfscan.Lib
