import Cfscan.Lib.Along
import Cfscan.Lib.Install

/-!
# Processes on a machine that can crash

Any number of processes that keep the discipline run interleaved, are killed, and lose everything
but the disk in a crash. `Kept` is the invariant, and `Kept.play` what it is worth: over any run
the common name is a register behind a cache, which a rename writes, a sync of the directory
flushes, and a crash crashes.

A process that is killed leaves its draft where it is. A crash ends all processes at once, and new
ones are started on the directory as the disk has it. A name that is drawn is not that of a draft
whose process still runs (`Fresh`); nothing else keeps two processes apart.
-/

set_option autoImplicit false

namespace Cfscan.Lib.Files

open Cfscan.Lib

variable {ν : Type} [DecidableEq ν]

/-! ## Processes

An act starts a process, performs its next operation with an outcome that the run chooses,
kills it, or crashes the machine. An act that does not fit the state of its process changes
nothing. -/

/-- What a process was started for, what `os.CreateTemp` gave it, and what it has yet to do. -/
inductive Process (ν β α : Type) where
  | idle
  | running (input : β) (temporary : Option (ν × Nat)) (program : Program ν α)
  | ended (input : β) (result : α)

def Process.continue {ν α β : Type} (input : β) (temporary : Option (ν × Nat)) :
    Program ν α → Process ν β α
  | .done a => .ended input a
  | program => .running input temporary program

structure Machine (ι ν β α : Type) where
  disk : Disk ν
  procs : ι → Process ν β α

namespace Machine

inductive Act (ι β : Type) where
  | start (i : ι) (input : β)
  | step (i : ι) (o : Outcome)
  | kill (i : ι)
  | crash (damage : Disk.Damage)

variable {ι α β : Type} [DecidableEq ι]

def setProc (w : Machine ι ν β α) (i : ι) (p : Process ν β α) : Machine ι ν β α :=
  { w with procs := Function.update w.procs i p }

omit [DecidableEq ν] in
@[simp] theorem setProc_self (w : Machine ι ν β α) (i : ι) (p : Process ν β α) :
    (w.setProc i p).procs i = p := by
  unfold setProc
  exact Function.update_self i p w.procs

omit [DecidableEq ν] in
theorem setProc_of_ne (w : Machine ι ν β α) {i j : ι} (hne : j ≠ i) (p : Process ν β α) :
    (w.setProc i p).procs j = w.procs j := by
  unfold setProc
  exact Function.update_of_ne hne p w.procs

omit [DecidableEq ν] in
@[simp] theorem disk_setProc (w : Machine ι ν β α) (i : ι) (p : Process ν β α) :
    (w.setProc i p).disk = w.disk := rfl

def perform (launch : β → Program ν α) (w : Machine ι ν β α) : Act ι β → Machine ι ν β α
  | .start i input =>
    match w.procs i with
    | .running _ _ _ => w
    | _ => w.setProc i (.continue input none (launch input))
  | .step i o =>
    match w.procs i with
    | .running input _ (.createTemp mode name next) =>
      match o.ok, w.disk.create (name o.draw) mode with
      | true, some (file, disk) =>
        { w with disk := disk }.setProc i
          (.continue input (some (name o.draw, file)) (next (some (name o.draw, file))))
      | _, _ => w.setProc i (.continue input none (next none))
    | .running input temporary (.call op next) =>
      let answer := op.perform w.disk o
      { w with disk := answer.2 }.setProc i (.continue input temporary (next answer.1))
    | _ => w
  | .kill i => w.setProc i .idle
  | .crash damage => ⟨w.disk.crash damage, fun _ => .idle⟩

/-- The name drawn is not that of a process that still runs. -/
def Fresh (w : Machine ι ν β α) : Act ι β → Prop
  | .step i o =>
    match w.procs i with
    | .running _ _ (.createTemp _ name _) =>
      ∀ j input taken file program, w.procs j = .running input (some (taken, file)) program →
        taken ≠ name o.draw
    | _ => True
  | _ => True

/-! ## The invariant

Every running process has a draft that is on the disk and a program that keeps the
discipline from there on, and no two of them share a name or a file. The log is what the
register has seen since the last crash. -/

variable {path : ν} {complete : β → File → Prop}
  {post : β → α → Draft ν → Prop} {launch : β → Program ν α} {w : Machine ι ν β α}
  {log : List (Register.Act (Option File))}

/-- The processes are started with programs that keep the discipline. -/
def Disciplined (path : ν) (complete : β → File → Prop) (post : β → α → Draft ν → Prop)
    (launch : β → Program ν α) : Prop :=
  ∀ input, Careful path (complete input) (post input) .none (launch input)

/-- The invariant, after the register has seen `log`. -/
structure Kept (path : ν) (complete : β → File → Prop) (post : β → α → Draft ν → Prop)
    (log : List (Register.Act (Option File))) (w : Machine ι ν β α) : Prop where
  settled : Settled path w.disk
  careful : ∀ i input temporary program, w.procs i = .running input temporary program →
    ∃ draft : Draft ν, draft.temporary = temporary ∧ draft.On path log w.disk ∧
      Careful path (complete input) (post input) draft program
  ended : ∀ i input result, w.procs i = .ended input result →
    ∃ draft : Draft ν, draft.Logged log ∧ post input result draft
  apart : ∀ i j input input' name name' file file' program program', i ≠ j →
    w.procs i = .running input (some (name, file)) program →
    w.procs j = .running input' (some (name', file')) program' → name ≠ name' ∧ file ≠ file'

/-- What an act does to the register behind the common name. -/
def does (w : Machine ι ν β α) : Act ι β → List (Register.Act (Option File))
  | .step i o =>
    match w.procs i with
    | .running _ _ (.call op _) => op.does w.disk o
    | _ => []
  | .crash _ => [.crash]
  | _ => []

def trace (launch : β → Program ν α) (w : Machine ι ν β α) :
    List (Act ι β) → List (Register.Act (Option File))
  | [] => []
  | a :: acts => w.does a ++ trace launch (perform launch w a) acts

theorem trace_append (launch : β → Program ν α) (w : Machine ι ν β α)
    (before after : List (Act ι β)) :
    trace launch w (before ++ after) =
      trace launch w before ++ trace launch (before.foldl (perform launch) w) after := by
  induction before generalizing w with
  | nil => rfl
  | cons a before ih =>
    show w.does a ++ trace launch (perform launch w a) (before ++ after) = _
    rw [ih, ← List.append_assoc]
    rfl

omit [DecidableEq ν] in
theorem continue_running {input input' : β} {temporary temporary' : Option (ν × Nat)}
    {program program' : Program ν α}
    (h : Process.continue input temporary program = .running input' temporary' program') :
    input' = input ∧ temporary' = temporary ∧ program' = program := by
  cases program with
  | done a => cases h
  | createTemp mode name next =>
    cases h
    exact ⟨rfl, rfl, rfl⟩
  | call op next =>
    cases h
    exact ⟨rfl, rfl, rfl⟩

omit [DecidableEq ν] in
theorem continue_over {input input' : β} {temporary : Option (ν × Nat)} {program : Program ν α}
    {result : α} (h : Process.continue input temporary program = .ended input' result) :
    input' = input ∧ program = .done result := by
  cases program with
  | done a =>
    cases h
    exact ⟨rfl, rfl⟩
  | createTemp mode name next => cases h
  | call op next => cases h

/-- The process that acts goes on with a draft of its own, and leaves the others alone. -/
theorem Kept.advance {i : ι} {input : β} {temporary : Option (ν × Nat)} {program : Program ν α}
    {disk : Disk ν} {draft : Draft ν} {log' : List (Register.Act (Option File))}
    (h : Kept path complete post log w) (hlog : log ⊆ log') (hdraft : draft.On path log' disk)
    (htouches : Touches path draft.temporary w.disk disk) (hsettled : Settled path disk)
    (hcareful : Careful path (complete input) (post input) draft program)
    (hapart : ∀ j input' name name' file file' program', i ≠ j →
      draft.temporary = some (name, file) →
      w.procs j = .running input' (some (name', file')) program' → name ≠ name' ∧ file ≠ file')
    (htemporary : draft.temporary = temporary) :
    Kept path complete post log' (({ w with disk := disk } : Machine ι ν β α).setProc i
      (.continue input temporary program)) := by
  subst htemporary
  refine ⟨hsettled, fun j input' temporary' program' hj => ?_, fun j input' result hj => ?_, ?_⟩
  · by_cases hij : j = i
    · subst hij
      rw [setProc_self] at hj
      obtain ⟨rfl, rfl, rfl⟩ := continue_running hj
      exact ⟨draft, rfl, hdraft, hcareful⟩
    · rw [setProc_of_ne _ hij] at hj
      obtain ⟨draft', rfl, hon, hcareful'⟩ := h.careful j _ _ _ hj
      -- its own name and file are apart from those of the process that acted
      have hon' := hon.frame htouches fun name file name' file' hmine htheirs => by
        rw [hmine] at hj
        obtain ⟨hname, hfile⟩ := hapart j _ _ _ _ _ _ (Ne.symm hij) htheirs hj
        exact ⟨Ne.symm hname, Ne.symm hfile⟩
      exact ⟨draft', rfl, hon'.mono hlog, hcareful'⟩
  · by_cases hij : j = i
    · subst hij
      rw [setProc_self] at hj
      obtain ⟨rfl, rfl⟩ := continue_over hj
      exact ⟨draft, hdraft.logged, hcareful⟩
    · rw [setProc_of_ne _ hij] at hj
      obtain ⟨draft', hlogged, hpost⟩ := h.ended j _ _ hj
      exact ⟨draft', hlogged.mono hlog, hpost⟩
  · intro j k input₁ input₂ name name' file file' program₁ program₂ hjk hj hk
    by_cases hji : j = i
    · subst hji
      rw [setProc_self] at hj
      rw [setProc_of_ne _ (Ne.symm hjk)] at hk
      exact hapart k _ _ _ _ _ _ hjk (continue_running hj).2.1.symm hk
    · rw [setProc_of_ne _ hji] at hj
      by_cases hki : k = i
      · subst hki
        rw [setProc_self] at hk
        obtain ⟨hname, hfile⟩ := hapart j _ _ _ _ _ _ (Ne.symm hji)
          (continue_running hk).2.1.symm hj
        exact ⟨Ne.symm hname, Ne.symm hfile⟩
      · rw [setProc_of_ne _ hki] at hk
        exact h.apart j k _ _ _ _ _ _ _ _ hjk hj hk

theorem Kept.kill (h : Kept path complete post log w) (i : ι) :
    Kept path complete post log (w.setProc i .idle) := by
  have hother : ∀ j, (w.setProc i .idle).procs j = .idle ∨
      (w.setProc i .idle).procs j = w.procs j := by
    intro j
    by_cases hij : j = i
    · subst hij
      exact .inl (setProc_self w j .idle)
    · exact .inr (setProc_of_ne w hij .idle)
  refine ⟨h.settled, fun j input temporary program hj => ?_, fun j input result hj => ?_,
    fun j k _ _ _ _ _ _ _ _ hjk hj hk => ?_⟩
  · rcases hother j with hidle | hsame
    · rw [hidle] at hj
      cases hj
    · exact h.careful j _ _ _ (hsame.symm.trans hj)
  · rcases hother j with hidle | hsame
    · rw [hidle] at hj
      cases hj
    · exact h.ended j _ _ (hsame.symm.trans hj)
  · rcases hother j with hidle | hsame
    · rw [hidle] at hj
      cases hj
    · rcases hother k with hidle' | hsame'
      · rw [hidle'] at hk
        cases hk
      · exact h.apart j k _ _ _ _ _ _ _ _ hjk (hsame.symm.trans hj) (hsame'.symm.trans hk)

/-- A crash leaves the common name one of the files it can stand for. -/
theorem register_crash {d : Disk ν} (hsettled : Settled path d) (damage : Disk.Damage) :
    Settled path (d.crash damage) ∧
      Register.Run (register path d) [.crash] (register path (d.crash damage)) := by
  obtain ⟨option, hmem, hoptions⟩ := d.options_crash damage path
  have hfiles : ∀ file, some file ∈ d.options path →
      (d.crash damage).files file = d.files file := by
    intro file hfile
    unfold Disk.crash
    dsimp only
    rw [if_pos (hsettled file hfile).2]
  constructor
  · intro file hfile
    rw [hoptions] at hfile
    have hold : some file ∈ d.options path := List.mem_singleton.mp hfile ▸ hmem
    rw [hfiles file hold]
    exact hsettled file hold
  · have hregister : register path (d.crash damage) = ⟨option.map d.files, []⟩ := by
      unfold register
      rw [show (d.crash damage).settled path = option from (List.cons.inj hoptions).1]
      have hmap : option.map (d.crash damage).files = option.map d.files := by
        cases option with
        | none => rfl
        | some file => exact congrArg some (hfiles file hmem)
      rw [hmap]
      rfl
    rw [hregister]
    refine .cons (.crash ?_) (.nil _)
    rw [register_options]
    exact List.mem_map_of_mem hmem

/-- **One act** keeps the invariant, and does to the register what `does` says. -/
theorem Kept.act {a : Act ι β} (hlaunch : Disciplined path complete post launch)
    (h : Kept path complete post log w) (hfresh : Fresh w a) :
    Kept path complete post (Register.recent log (w.does a)) (perform launch w a) ∧
      Register.Run (register path w.disk) (w.does a) (register path (perform launch w a).disk) := by
  cases a with
  | start i input =>
    have hdraft : (Draft.none : Draft ν).On path log w.disk := trivial
    have hstarted : Kept path complete post log
        (w.setProc i (.continue input none (launch input))) :=
      h.advance (List.Subset.refl log) hdraft (.refl path _ _) h.settled (hlaunch input)
        (fun _ _ _ _ _ _ _ _ hnone _ => nomatch hnone) rfl
    simp only [Machine.perform, Machine.does]
    cases w.procs i with
    | running input temporary program => exact ⟨h, .nil _⟩
    | idle => exact ⟨hstarted, .nil _⟩
    | ended input result => exact ⟨hstarted, .nil _⟩
  | kill i => exact ⟨h.kill i, .nil _⟩
  | crash damage =>
    obtain ⟨hsettled, hrun⟩ := register_crash h.settled damage
    have hidle : ∀ i, (perform launch w (.crash damage)).procs i = .idle := fun _ => rfl
    refine ⟨⟨hsettled, fun i _ _ _ hi => ?_, fun i _ _ hi => ?_,
      fun i _ _ _ _ _ _ _ _ _ _ hi _ => ?_⟩, hrun⟩ <;>
    · rw [hidle i] at hi
      cases hi
  | step i o =>
    simp only [Machine.perform, Machine.does]
    cases hi : w.procs i with
    | idle => exact ⟨h, .nil _⟩
    | ended input result => exact ⟨h, .nil _⟩
    | running input temporary program =>
      obtain ⟨draft, rfl, hon, hcareful⟩ := h.careful i _ _ _ hi
      cases program with
      | done a => exact ⟨h, .nil _⟩
      | call op next =>
        obtain ⟨hallows, hnext⟩ := hcareful
        have hperformed := perform_performed o hallows hon h.settled
        refine ⟨?_, hperformed.register⟩
        dsimp only
        rw [Register.recent_eq (op.does_ne_crash w.disk o)]
        refine h.advance (List.subset_append_left log _) hperformed.on
          (hperformed.temporary ▸ hperformed.touches) hperformed.settled (hnext o _) ?_
          hperformed.temporary
        intro j input' name name' file file' program' hij hmine hj
        rw [hperformed.temporary] at hmine
        rw [hmine] at hi
        exact h.apart i j _ _ _ _ _ _ _ _ hij hi hj
      | createTemp mode name next =>
        obtain ⟨rfl, hfailed, hmade⟩ := hcareful
        have hdraft : (Draft.none : Draft ν).On path log w.disk := trivial
        have hnone : Kept path complete post log
            (w.setProc i (.continue input none (next none))) :=
          h.advance (List.Subset.refl log) hdraft (.refl path _ _) h.settled hfailed
            (fun _ _ _ _ _ _ _ _ htemporary _ => nomatch htemporary) rfl
        dsimp only
        split
        · rename_i file disk hok hcreate
          obtain ⟨hpath, hnext⟩ := hmade o.draw file
          obtain ⟨hfile, hon', htouches, hsettled, hregister⟩ :=
            create_own log hcreate hpath h.settled
          refine ⟨h.advance (List.Subset.refl log) hon' htouches hsettled hnext
            (fun j input' name' name'' file' file'' program' hij hmine hj => ?_) rfl, ?_⟩
          · cases hmine
            simp only [Fresh, hi] at hfresh
            refine ⟨Ne.symm (hfresh j _ _ _ _ hj), ?_⟩
            -- the file is one that nobody had before
            obtain ⟨draft', htemporary, hon'', -⟩ := h.careful j _ _ _ hj
            rw [hfile]
            exact Nat.ne_of_gt (hon''.name_ne htemporary).1
          · rw [disk_setProc, hregister]
            exact .nil _
        · exact ⟨hnone, .nil _⟩

theorem Kept.play {acts : List (Act ι β)}
    (hlaunch : Disciplined path complete post launch)
    (h : Kept path complete post log w) (hfresh : Along (Machine.perform launch) Fresh w acts) :
    Kept path complete post (Register.recent log (trace launch w acts))
        (acts.foldl (Machine.perform launch) w) ∧
      Register.Run (register path w.disk) (trace launch w acts)
        (register path (acts.foldl (Machine.perform launch) w).disk) := by
  induction acts generalizing w log with
  | nil => exact ⟨h, .nil _⟩
  | cons a acts ih =>
    obtain ⟨hkept, hrun⟩ := h.act hlaunch hfresh.1
    obtain ⟨hkept', hrun'⟩ := ih hkept hfresh.2
    rw [← Register.recent_append] at hkept'
    exact ⟨hkept', hrun.append hrun'⟩

/-- A process runs for the input. -/
def InProgress (w : Machine ι ν β α) (input : β) : Prop :=
  ∃ i temporary program, w.procs i = .running input temporary program

theorem inProgress_perform {a : Act ι β} {input : β} (h : InProgress (perform launch w a) input) :
    InProgress w input ∨ ∃ i, a = .start i input := by
  obtain ⟨i, temporary, program, hi⟩ := h
  have hset : ∀ (disk : Disk ν) j input' temporary' (program' : Program ν α),
      InProgress w input' ∨ (∃ i, a = .start i input') →
      (({ w with disk := disk } : Machine ι ν β α).setProc j
        (.continue input' temporary' program')).procs i = .running input temporary program →
      InProgress w input ∨ ∃ i, a = .start i input := by
    intro disk j input' temporary' program' hinput hrunning
    by_cases hij : i = j
    · subst hij
      rw [setProc_self] at hrunning
      obtain ⟨rfl, -, -⟩ := continue_running hrunning
      exact hinput
    · rw [setProc_of_ne _ hij] at hrunning
      exact .inl ⟨i, _, _, hrunning⟩
  cases a with
  | start j input' =>
    simp only [Machine.perform] at hi
    split at hi
    · exact .inl ⟨i, _, _, hi⟩
    · exact hset w.disk j input' none _ (.inr ⟨j, rfl⟩) hi
  | kill j =>
    have hne : i ≠ j := by
      rintro rfl
      simp [Machine.perform] at hi
    exact .inl ⟨i, _, _, (setProc_of_ne w hne _).symm.trans hi⟩
  | crash damage => cases hi
  | step j o =>
    simp only [Machine.perform] at hi
    split at hi
    · rename_i input' temporary' mode name next hj
      split at hi
      · exact hset _ j input' _ _ (.inl ⟨j, _, _, hj⟩) hi
      · exact hset w.disk j input' _ _ (.inl ⟨j, _, _, hj⟩) hi
    · rename_i input' temporary' op next hj
      exact hset _ j input' _ _ (.inl ⟨j, _, _, hj⟩) hi
    · exact .inl ⟨i, _, _, hi⟩

/-- What is read is a write since the last crash, when there is one. -/
theorem Kept.current {acts : List (Act ι β)} (hlaunch : Disciplined path complete post launch)
    (h : Kept path complete post [] w) (hfresh : Along (Machine.perform launch) Fresh w acts)
    {v : Option File} (hwrite : .write v ∈ Register.recent [] (trace launch w acts)) :
    .write ((acts.foldl (Machine.perform launch) w).disk.read path) ∈
      Register.recent [] (trace launch w acts) := by
  rw [← register_view]
  exact (h.play hlaunch hfresh).2.current (fun _ ha => nomatch ha) v hwrite

omit [DecidableEq ι] in
/-- What an act writes is the complete file of a process. -/
theorem Kept.write {a : Act ι β} {v : Option File} (h : Kept path complete post log w)
    (hwrite : .write v ∈ w.does a) :
    ∃ input f, v = some f ∧ complete input f ∧ InProgress w input := by
  cases a with
  | start i input => cases hwrite
  | kill i => cases hwrite
  | crash damage => cases List.mem_singleton.mp hwrite
  | step i o =>
    simp only [Machine.does] at hwrite
    split at hwrite
    · rename_i input temporary op next hi
      obtain ⟨draft, rfl, hon, hcareful⟩ := h.careful i _ _ _ hi
      obtain ⟨hallows, -⟩ := hcareful
      cases op with
      | rename source target =>
        cases draft with
        | none => cases hallows
        | installed name file f => cases hallows
        | own name file f =>
          obtain ⟨rfl, rfl, -, hcomplete⟩ := hallows
          obtain rfl : w.disk.files file = f := hon.2.2.1
          refine ⟨input, _, ?_, hcomplete, i, _, _, hi⟩
          -- only a rename of its own draft puts a file at the path, and the draft is complete
          rcases hon.2.2.2.2 with hentry | hentry
          · simp only [Op.does, hentry] at hwrite
            split at hwrite
            · rename_i heq
              cases heq
              cases List.mem_singleton.mp hwrite
              rfl
            · cases hwrite
          · simp only [Op.does, hentry] at hwrite
            split at hwrite
            · rename_i heq
              cases heq
            · cases hwrite
      | syncDir =>
        simp only [Op.does] at hwrite
        split at hwrite
        · cases List.mem_singleton.mp hwrite
        · cases hwrite
      | _ => cases hwrite
    · cases hwrite

theorem Kept.trace_write {acts : List (Act ι β)} {v : Option File}
    (hlaunch : Disciplined path complete post launch)
    (h : Kept path complete post log w) (hfresh : Along (Machine.perform launch) Fresh w acts)
    (hwrite : .write v ∈ trace launch w acts) :
    ∃ input f, v = some f ∧ complete input f ∧
      (InProgress w input ∨ ∃ i, .start i input ∈ acts) := by
  induction acts generalizing w log with
  | nil => cases hwrite
  | cons a acts ih =>
    rcases List.mem_append.mp hwrite with hnow | hlater
    · obtain ⟨input, f, hv, hcomplete, hinput⟩ := h.write hnow
      exact ⟨input, f, hv, hcomplete, .inl hinput⟩
    · obtain ⟨input, f, hv, hcomplete, hinput⟩ := ih (h.act hlaunch hfresh.1).1 hfresh.2 hlater
      refine ⟨input, f, hv, hcomplete, ?_⟩
      rcases hinput with hrunning | ⟨i, hstart⟩
      · rcases inProgress_perform hrunning with hbefore | ⟨i, rfl⟩
        · exact .inl hbefore
        · exact .inr ⟨i, List.mem_cons_self⟩
      · exact .inr ⟨i, List.mem_cons_of_mem _ hstart⟩

end Machine

end Cfscan.Lib.Files
