import Cfscan.Lib.Machine

/-!
# The identity file — `cmd/agent/identity.go`

`saveIdentity` writes a file of its own and renames it to the path when all its bytes are on the
device. Whatever fails, and whenever the process or the machine stops, what `loadIdentity` finds is
what was there before or a whole identity: `identity_whole`. Once the directory has been synced, it
does not go back to what was there before: `identity_durable`.

The names are those in the directory of the path. A file operation fails or has its effect; a write
that fails has written a part. What `encoding/json` makes of an identity is passed in.

## The three results

* `identity_whole` holds in every state, under any interleaving of saves, failures, kills and
  crashes.
* `identity_reported` is about a save that has returned nil: until the next crash its identity, or a
  later one, is at the path.
* `identity_durable` is about a save that has synced the directory: from then on, through any crash,
  what is found is that identity or a later one.

Between the second and the third there is a gap in the code, and the statements leave it open: the
error of the last `Sync` is dropped, so a save can return nil without the directory being on the
device.

`Quiet` says what is assumed of the machine before: nobody saves yet, and what is at the path is on
the device. `Saves` adds that a temporary file has a name nobody else has, and that JSON reads back
what it wrote.
-/

set_option autoImplicit false

namespace Cfscan.Agent

open Cfscan.Lib Cfscan.Lib.Files

/-- `agentIdentity` -/
structure AgentIdentity where
  serverURL : String
  agentID : String
  token : String
  name : String
  concurrency : Int
deriving DecidableEq, Repr

structure Json where
  /-- `json.MarshalIndent` -/
  marshalIndent : AgentIdentity → List UInt8
  /-- `json.Unmarshal` -/
  unmarshal : List UInt8 → Except String AgentIdentity

inductive LoadError where
  /-- `os.ErrNotExist` -/
  | notExist
  | message (text : String)
deriving DecidableEq, Repr

def AgentIdentity.incomplete (identity : AgentIdentity) : Bool :=
  identity.serverURL = "" || identity.agentID = "" || identity.token = "" ||
    decide (identity.concurrency < 1)

/-- `loadIdentity`, for the file `os.ReadFile` opens. -/
def loadIdentity (json : Json) : Option File → Except LoadError AgentIdentity
  | none => .error .notExist
  | some file =>
    match json.unmarshal file.data with
    | .error cause => .error (.message ("decode identity: " ++ cause))
    | .ok identity =>
      if identity.incomplete then .error (.message "identity file is incomplete") else .ok identity

/-! ## `saveIdentity`

The file operations in order, with the deferred removal of the temporary file. `Careful` is
the library's condition on such a program: the rename comes after the bytes are on the
device, so that the path only ever names a whole file. -/

abbrev Saving := Program String (Except String Unit)

/-- From the temporary file on, up to the deferred `os.Remove`. -/
def installIdentity (path : String) (data : List UInt8) (temporaryPath : String) (temporary : Nat) :
    Saving := do
  if ← Program.run (.chmod temporary 0o600) then
    if ← Program.run (.write temporary (data ++ [10])) then
      if ← Program.run (.sync temporary) then
        if ← Program.run (.close temporary) then
          if ← Program.run (.rename temporaryPath path) then
            let _ ← Program.run .syncDir
            pure (.ok ())
          else pure (.error "install identity")
        else pure (.error "close identity")
      else
        let _ ← Program.run (.close temporary)
        pure (.error "sync identity")
    else
      let _ ← Program.run (.close temporary)
      pure (.error "write identity")
  else
    let _ ← Program.run (.close temporary)
    pure (.error "protect identity file")

def temporaryName (draw : Nat) : String := ".identity-" ++ toString draw

def saveIdentity (json : Json) (path : String) (identity : AgentIdentity) : Saving := do
  if ← Program.run .mkdirAll then
    match ← Program.createTemp 0o600 temporaryName Program.done with
    | none => pure (.error "create temporary identity")
    | some (temporaryPath, temporary) =>
      let result ← installIdentity path (json.marshalIndent identity) temporaryPath temporary
      let _ ← Program.run (.remove temporaryPath)
      pure result
  else pure (.error "create identity directory")

/-- The file of an identity. -/
def Holds (json : Json) (identity : AgentIdentity) (f : File) : Prop :=
  f.mode = 0o600 ∧ f.data = json.marshalIndent identity ++ [10]

section Discipline

variable {json : Json} {path : String} {identity : AgentIdentity}

/-- No temporary file has the name of the path. -/
def Apart (path : String) : Prop := ∀ draw, temporaryName draw ≠ path

/-- A save that succeeds has given its file the name of the path. -/
def Installed (json : Json) (identity : AgentIdentity) (result : Except String Unit)
    (draft : Draft String) : Prop :=
  result = .ok () → ∃ name file f, draft = .installed name file f ∧ Holds json identity f

theorem installIdentity_careful {temporaryPath : String} {temporary : Nat} :
    Careful path (Holds json identity)
      (fun result draft => draft.temporary = some (temporaryPath, temporary) ∧
        Installed json identity result draft)
      (.own temporaryPath temporary ⟨0o600, [], false⟩)
      (installIdentity path (json.marshalIndent identity) temporaryPath temporary) := by
  unfold installIdentity
  refine careful_run rfl (fun o => ?_) fun o => ?_
  · refine careful_run rfl (fun o => ?_) fun o => ?_
    · refine careful_run rfl (fun o => ?_) fun o => ?_
      · refine careful_run trivial (fun o => ?_) fun o => ⟨rfl, nofun⟩
        refine careful_run ⟨rfl, rfl, rfl, rfl, rfl⟩ (fun o => ?_) fun o => ⟨rfl, nofun⟩
        have hholds : Holds json identity ⟨0o600, json.marshalIndent identity ++ [10], true⟩ :=
          ⟨rfl, rfl⟩
        exact careful_run trivial (fun o => ⟨rfl, fun _ => ⟨_, _, _, rfl, hholds⟩⟩)
          fun o => ⟨rfl, fun _ => ⟨_, _, _, rfl, hholds⟩⟩
      · exact careful_run trivial (fun o => ⟨rfl, nofun⟩) fun o => ⟨rfl, nofun⟩
    · exact careful_run trivial (fun o => ⟨rfl, nofun⟩) fun o => ⟨rfl, nofun⟩
  · exact careful_run trivial (fun o => ⟨rfl, nofun⟩) fun o => ⟨rfl, nofun⟩

theorem saveIdentity_disciplined (json : Json) (hpath : Apart path) :
    Machine.Disciplined path (Holds json) (Installed json) (saveIdentity json path) := by
  intro identity
  unfold saveIdentity
  refine careful_run trivial (fun o => ?_) fun o => nofun
  refine ⟨rfl, nofun, fun draw file => ⟨hpath draw, ?_⟩⟩
  refine Careful.bind (x := installIdentity path _ _ file) installIdentity_careful
    fun result draft hdraft => ?_
  obtain ⟨htemporary, hinstalled⟩ := hdraft
  cases draft with
  | none => cases htemporary
  | own name file' f =>
    cases htemporary
    exact careful_run rfl (fun _ => hinstalled) fun _ => hinstalled
  | installed name file' f =>
    cases htemporary
    exact careful_run rfl (fun _ => hinstalled) fun _ => hinstalled

end Discipline

/-! ## What is found at the path

The path as a register: a rename writes it, a crash may take it back to anything since the
last sync of the directory. The three results are what the library says of such registers,
read in the words of identities. -/

/-- A machine on which any number of processes save identities. -/
abbrev Host (ι : Type) := Machine ι String AgentIdentity (Except String Unit)

section Host

variable {ι : Type} [DecidableEq ι] {json : Json} {path : String} {w : Host ι}
  {acts : List (Machine.Act ι AgentIdentity)}

def Host.play (json : Json) (path : String) (w : Host ι)
    (acts : List (Machine.Act ι AgentIdentity)) :
    Host ι :=
  acts.foldl (Machine.perform (saveIdentity json path)) w

/-- The file at the path, as `os.ReadFile` opens it. -/
def Host.found (path : String) (w : Host ι) : Option File := w.disk.read path

/-- Nobody saves yet, and what is at the path is on the device. -/
structure Quiet (path : String) (w : Host ι) : Prop where
  idle : ∀ i, w.procs i = .idle
  settled : Settled path w.disk

omit [DecidableEq ι] in
theorem Quiet.kept (h : Quiet path w) : Machine.Kept path (Holds json) (Installed json) [] w where
  settled := h.settled
  careful := fun i _ _ _ hi => by
    rw [h.idle i] at hi
    cases hi
  ended := fun i _ _ hi => by
    rw [h.idle i] at hi
    cases hi
  apart := fun i _ _ _ _ _ _ _ _ _ _ hi _ => by
    rw [h.idle i] at hi
    cases hi

/-- The text of an identity is read back as it was written. -/
def ReadsBack (json : Json) (identity : AgentIdentity) : Prop :=
  json.unmarshal (json.marshalIndent identity ++ [10]) = .ok identity

/-- A run of saves from a quiet machine, whose temporary files have names of their own. -/
structure Saves (json : Json) (path : String) (w : Host ι)
    (acts : List (Machine.Act ι AgentIdentity)) : Prop where
  apart : Apart path
  quiet : Quiet path w
  fresh : Along (Machine.perform (saveIdentity json path)) Machine.Fresh w acts
  readsBack : ∀ i identity, .start i identity ∈ acts → ReadsBack json identity

/-- An identity is at the path, whole and for its owner only. -/
def Saved (json : Json) (identity : AgentIdentity) (found : Option File) : Prop :=
  (∃ f, found = some f ∧ f.mode = 0o600) ∧
    loadIdentity json found = if identity.incomplete then
      .error (.message "identity file is incomplete") else .ok identity

theorem saved_of_holds {identity : AgentIdentity} {f : File} (hjson : ReadsBack json identity)
    (hholds : Holds json identity f) : Saved json identity (some f) := by
  refine ⟨⟨f, rfl, hholds.1⟩, ?_⟩
  unfold loadIdentity
  dsimp only
  rw [hholds.2, show json.unmarshal (json.marshalIndent identity ++ [10]) = _ from hjson]

/-- Whatever is written at the path is an identity that was to be saved. -/
theorem Saves.written (h : Saves json path w acts) {found : Option File}
    (hwrite : .write found ∈ Machine.trace (saveIdentity json path) w acts) :
    ∃ i identity, .start i identity ∈ acts ∧ Saved json identity found := by
  obtain ⟨identity, f, rfl, hholds, hrunning | ⟨i, hstart⟩⟩ :=
    h.quiet.kept.trace_write (saveIdentity_disciplined json h.apart) h.fresh hwrite
  · obtain ⟨i, _, _, hi⟩ := hrunning
    rw [h.quiet.idle i] at hi
    cases hi
  · exact ⟨i, identity, hstart, saved_of_holds (h.readsBack i identity hstart) hholds⟩

/-- **A whole identity or none**: what is at the path is what was there before, or an identity
that a process was to save, whatever was interrupted. -/
theorem identity_whole (json : Json) (path : String) (w : Host ι)
    (acts : List (Machine.Act ι AgentIdentity)) (h : Saves json path w acts) :
    (w.play json path acts).found path ∈ (register path w.disk).options ∨
      ∃ i identity, .start i identity ∈ acts ∧
        Saved json identity ((w.play json path acts).found path) := by
  obtain ⟨hkept, hrun⟩ := h.quiet.kept.play (saveIdentity_disciplined json h.apart) h.fresh
  have hview : (w.play json path acts).found path ∈
      (register path (w.play json path acts).disk).options := by
    unfold Host.found
    rw [← register_view]
    exact Register.view_mem _
  rcases hrun.options _ hview with hfirst | hwritten
  · exact .inl hfirst
  · exact .inr (h.written hwritten)

/-- Since the last crash an identity has been written: it, or a later one, is found. -/
theorem Saves.recent (h : Saves json path w acts) {v : Option File}
    (hwrite : .write v ∈ Register.recent [] (Machine.trace (saveIdentity json path) w acts)) :
    ∃ i identity, .start i identity ∈ acts ∧
      Saved json identity ((w.play json path acts).found path) := by
  have hcurrent := h.quiet.kept.current (saveIdentity_disciplined json h.apart) h.fresh hwrite
  rcases Register.mem_of_mem_recent hcurrent with hnone | hwritten
  · cases hnone
  · exact h.written hwritten

/-- **What was reported as saved is there**, it or what was saved after it, until a crash. -/
theorem identity_reported (json : Json) (path : String) (w : Host ι)
    (acts : List (Machine.Act ι AgentIdentity)) (h : Saves json path w acts) (i : ι)
    (identity : AgentIdentity)
    (hover : (w.play json path acts).procs i = .ended identity (.ok ())) :
    ∃ j identity', .start j identity' ∈ acts ∧
      Saved json identity' ((w.play json path acts).found path) := by
  obtain ⟨hkept, -⟩ := h.quiet.kept.play (saveIdentity_disciplined json h.apart) h.fresh
  obtain ⟨draft, hlogged, hinstalled⟩ := hkept.ended i identity _ hover
  obtain ⟨name, file, f, rfl, -⟩ := hinstalled rfl
  exact h.recent hlogged

theorem Saves.earlier {before after : List (Machine.Act ι AgentIdentity)}
    (h : Saves json path w (before ++ after)) : Saves json path w before :=
  ⟨h.apart, h.quiet, (along_append.mp h.fresh).1,
    fun i identity hstart => h.readsBack i identity (List.mem_append_left after hstart)⟩

/-- **What was synced is there for good**, it or what was saved after it, through any crash. -/
theorem identity_durable (json : Json) (path : String) (w : Host ι)
    (before after : List (Machine.Act ι AgentIdentity)) (i : ι) (o : Outcome)
    (h : Saves json path w (before ++ .step i o :: after)) (identity : AgentIdentity)
    (temporary : Option (String × Nat)) (next : Bool → Saving)
    (hsync : (w.play json path before).procs i = .running identity temporary (.call .syncDir next))
    (hok : o.ok = true) (hanchored : (w.play json path before).disk.anchored = true) :
    let found := (w.play json path (before ++ .step i o :: after)).found path
    (found = (w.play json path before).found path ∨
        .write found ∈ Machine.trace (saveIdentity json path)
          (w.play json path (before ++ [.step i o])) after) ∧
      ∃ j identity', .start j identity' ∈ before ++ .step i o :: after ∧
        Saved json identity' found := by
  have hlaunch := saveIdentity_disciplined json h.apart
  obtain ⟨hkept, -⟩ := h.quiet.kept.play hlaunch h.earlier.fresh
  -- the process has renamed its file, so that an identity is there when the directory is synced
  obtain ⟨draft, -, hon, hallows, -⟩ := hkept.careful i _ _ _ hsync
  obtain ⟨name, file, f, rfl⟩ : ∃ name file f, draft = .installed name file f := by
    cases draft with
    | none => cases hallows
    | own name file f => cases hallows
    | installed name file f => exact ⟨name, file, f, rfl⟩
  obtain ⟨j, identity', hstart, hsaved⟩ := h.earlier.recent hon.logged
  have hstep : (w.play json path (before ++ [.step i o])).disk =
      (w.play json path before).disk.flush := by
    unfold Host.play
    rw [List.foldl_append]
    show (Machine.perform (saveIdentity json path) (w.play json path before) (.step i o)).disk = _
    simp only [Machine.perform, hsync, Op.perform, hok, if_true, Machine.disk_setProc]
    rfl
  have hoptions : (register path (w.play json path (before ++ [.step i o])).disk).options =
      [(w.play json path before).found path] := by
    rw [hstep, register_options, Disk.options_flush, if_pos hanchored, Disk.files_flush]
    rfl
  have hsplit : before ++ .step i o :: after = before ++ [.step i o] ++ after :=
    (List.append_cons before _ after)
  have hfinal : w.play json path (before ++ .step i o :: after) =
      after.foldl (Machine.perform (saveIdentity json path))
        (w.play json path (before ++ [.step i o])) := by
    unfold Host.play
    rw [hsplit, List.foldl_append]
  have hfresh := h.fresh
  rw [hsplit] at hfresh
  obtain ⟨hfresh₁, hfresh₂⟩ := along_append.mp hfresh
  obtain ⟨hkept₁, -⟩ := h.quiet.kept.play hlaunch hfresh₁
  obtain ⟨-, hrun⟩ := hkept₁.play hlaunch hfresh₂
  have hview : (w.play json path (before ++ .step i o :: after)).found path ∈
      (register path (after.foldl (Machine.perform (saveIdentity json path))
        (w.play json path (before ++ [.step i o]))).disk).options := by
    rw [← hfinal]
    unfold Host.found
    rw [← register_view]
    exact Register.view_mem _
  rcases hrun.options _ hview with hfirst | hwritten
  · have hsame := List.mem_singleton.mp (hoptions ▸ hfirst)
    refine ⟨.inl hsame, j, identity', List.mem_append_left _ hstart, ?_⟩
    rw [hsame]
    exact hsaved
  · have htrace := Machine.trace_append (saveIdentity json path) w (before ++ [.step i o]) after
    rw [← hsplit] at htrace
    exact ⟨.inr hwritten, h.written (htrace ▸ List.mem_append_right _ hwritten)⟩

end Host

/-! ## One save -/

/-- The text of an identity none of whose characters is escaped. -/
def plainText (identity : AgentIdentity) : String :=
  "\x7b\n  \"server_url\": \"" ++ identity.serverURL ++ "\",\n  \"agent_id\": \"" ++
    identity.agentID ++ "\",\n  \"token\": \"" ++ identity.token ++ "\",\n  \"name\": \"" ++
    identity.name ++ "\",\n  \"concurrency\": " ++ toString identity.concurrency ++ "\n\x7d"

def node : AgentIdentity := ⟨"https://agent.example.com", "agent", "secret", "node", 64⟩

def nodeJson : Json where
  marshalIndent := fun identity => (plainText identity).toUTF8.toList
  unmarshal := fun data =>
    if data = (plainText node).toUTF8.toList ++ [10] then .ok node else .error "invalid character"

def newHost : Host Unit :=
  ⟨⟨fun _ => ⟨0, [], true⟩, 0, true, fun _ => none, []⟩, fun _ => .idle⟩

def success : Outcome := ⟨true, 0, 7⟩

/-- The first save up to the sync of the directory. -/
def upToSync : List (Machine.Act Unit AgentIdentity) :=
  .start () node :: List.replicate 7 (.step () success)

theorem apart_identityJson : Apart "identity.json" := by
  intro draw heq
  have hfirst := congrArg (fun text : String => text.toList.head?) heq
  simp [temporaryName] at hfirst

/-- The rest of it, and a crash that keeps no change the directory has not been synced for. -/
def fromSync : List (Machine.Act Unit AgentIdentity) :=
  [.step () success, .step () success, .crash ⟨[], false, fun _ => ⟨0, [], true⟩⟩]

theorem saves_node : Saves nodeJson "identity.json" newHost (upToSync ++ fromSync) where
  apart := apart_identityJson
  quiet := ⟨fun _ => rfl, fun file hmem => nomatch List.mem_singleton.mp hmem⟩
  fresh := ⟨trivial, trivial, (fun _ _ _ _ _ h => nomatch h), trivial, trivial, trivial, trivial,
    trivial, trivial, trivial, trivial, trivial⟩
  readsBack := by
    intro i identity hstart
    obtain rfl : identity = node := by
      simpa [upToSync, fromSync, List.replicate] using hstart
    exact if_pos rfl

theorem identity_whole_node :
    (newHost.play nodeJson "identity.json" (upToSync ++ fromSync)).found "identity.json" ∈
        (register "identity.json" newHost.disk).options ∨
      ∃ i identity, .start i identity ∈ upToSync ++ fromSync ∧
        Saved nodeJson identity
          ((newHost.play nodeJson "identity.json" (upToSync ++ fromSync)).found "identity.json") :=
  identity_whole nodeJson "identity.json" newHost (upToSync ++ fromSync) saves_node

theorem identity_durable_node :
    ∃ identity, Saved nodeJson identity
      ((newHost.play nodeJson "identity.json" (upToSync ++ fromSync)).found "identity.json") := by
  obtain ⟨-, j, identity, -, hsaved⟩ := identity_durable nodeJson "identity.json" newHost upToSync
    fromSync.tail () success saves_node node _ _ rfl rfl rfl
  exact ⟨identity, hsaved⟩

theorem identity_reported_node :
    ∃ identity, Saved nodeJson identity ((newHost.play nodeJson "identity.json"
      (upToSync ++ fromSync.take 2)).found "identity.json") := by
  have hall : Saves nodeJson "identity.json" newHost
      ((upToSync ++ fromSync.take 2) ++ fromSync.drop 2) := saves_node
  obtain ⟨j, identity, -, hsaved⟩ := identity_reported nodeJson "identity.json" newHost
    (upToSync ++ fromSync.take 2) hall.earlier () node rfl
  exact ⟨identity, hsaved⟩

end Cfscan.Agent
