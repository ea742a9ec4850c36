import Chip8Frame.Proofs.Attentive
import Chip8Frame.Proofs.Posted

/-! Requests for a boot and the tasks that they become. A boot call or a restart that succeeds asks
for one command, and so does a message that can be read where one listener hears it; nothing else
asks for any. A frame queues what it was asked for, neither more nor less, and the commands of a
whole history are taken up once each or still wait. -/

namespace Chip8Frame.Browser

open Boot (Parameters)
open Host (Session)

namespace Frame

def declared (f : Frame) : Parameters :=
  match (Browsing.frameElement f.realm).1 with
  | .ok (some n) => .ofAttributes n.attribute?
  | _ => .absent

def actAsks (f : Frame) : Action → List (Binary64 × Host.Command)
  | .message data =>
      match data.parameters with
      | .ok p => List.replicate f.bootListeners (windowWidth f.realm, .message p)
      | .error _ => []
  | _ => []

def runAsks (f : Frame) (n : Nat) : List (Binary64 × Host.Command) :=
  match f.guests[n]? with
  | none => []
  | some g =>
      match g.script.runGetterThrows, g.script.runInstead with
      | none, none => g.script.atRun.flatMap f.actAsks
      | _, _ => []

def pollAsks (f : Frame) : Task → List (Binary64 × Host.Command)
  | .loading n _ =>
      match f.loadOf n, readInstance (f.scriptOf (.guest n)) with
      | .resolved, .ok () => f.runAsks n
      | _, _ => []
  | _ => []

/-- The commands that a happening asks for, with the widths of this moment. -/
def asked (f : Frame) : Happening → List (Binary64 × Host.Command)
  | .boot options =>
      if (f.bootFromAttributes options).1.isOk then
        [(currentWidth f.realm, .frameLoaded f.declared)]
      else []
  | .restart => if f.restart.1.isOk then [(currentWidth f.realm, .restart)] else []
  | .turn i => f.tasks[i]?.elim [] f.pollAsks
  | .act a => f.actAsks a
  | _ => []

def requests (p : Opening) : List Happening → List (Binary64 × Host.Command)
  | [] => []
  | x :: h => (after p h).asked x ++ requests p h

/-- Whoever asks for a boot gets one task, and no task is carried out twice. -/
structure OneTaskEach (p : Opening) (h : List Happening) : Prop where
  boot : ∀ options, ((after p h).arrivals (.boot options)).length =
    ((after p h).bootFromAttributes options).1.isOk.toNat
  restart : ((after p h).arrivals .restart).length = (after p h).restart.1.isOk.toNat
  message : ∀ data, ((after p h).arrivals (.act (.message data))).length =
    data.parameters.isOk.toNat * (after p h).bootListeners
  heard : (after p h).bootListeners ≤ 1
  taken : (requests p h).Perm (taken p h ++ (after p h).waiting)
  carriedOut : (started p h).Subperm (requests p h)

/-- Commands are queued, and later messages are heard as before. -/
structure Queues (cs : List (Binary64 × Host.Command)) (f g : Frame) : Prop where
  waiting : g.waiting = f.waiting ++ cs
  listeners : g.realm.listeners = f.realm.listeners
  closures : g.realm.closures = f.realm.closures
  width : windowWidth g.realm = windowWidth f.realm

section Actions

variable {l : Option Nat} {f g k : Frame} {cs ds : List (Binary64 × Host.Command)}

theorem waiting_of_tasks (h : g.tasks = f.tasks) : g.waiting = f.waiting := by
  simp only [waiting, h]

theorem Queues.refl (f : Frame) : Queues [] f f := ⟨by simp, rfl, rfl, rfl⟩

theorem Queues.trans (h : Queues cs f g) (k' : Queues ds g k) : Queues (cs ++ ds) f k where
  waiting := by rw [k'.waiting, h.waiting, List.append_assoc]
  listeners := k'.listeners.trans h.listeners
  closures := k'.closures.trans h.closures
  width := k'.width.trans h.width

theorem Queues.of_kept (hr : Realm.Kept f.realm g.realm) (h : g.tasks = f.tasks) :
    Queues [] f g where
  waiting := by rw [waiting_of_tasks h, List.append_nil]
  listeners := hr.toSteady.listeners
  closures := hr.closures
  width := hr.toSameView.windowWidth

theorem Queues.actAsks (h : Queues cs f g) : g.actAsks = f.actAsks := by
  have hheard : g.bootListeners = f.bootListeners := by
    simp only [bootListeners, Realm.listenersFor, Realm.handler?, h.listeners, h.closures]
    rfl
  funext a
  cases a <;> simp only [Frame.actAsks, hheard, h.width]

theorem signalExit_tasks (f : Frame) (channel : Nat) (code : Int32) :
    (f.signalExit channel code).tasks = f.tasks := by
  unfold signalExit
  split
  · simp only
    split <;> rfl
  · rfl

theorem latchError_tasks (f : Frame) (message : String) :
    (f.latchError message).tasks = f.tasks := by
  unfold latchError
  split <;> rfl

theorem fireError_tasks (f : Frame) (message : String) :
    (f.fireError message).2.tasks = f.tasks := by
  simp only [fireError, fire]
  generalize f.realm.listenersFor .window "error" = ls
  induction ls generalizing f with
  | nil => rfl
  | cons l ls ih =>
    rw [List.foldl_cons, ih]
    split
    · split
      · exact latchError_tasks f message
      · rfl
    · rfl

theorem fireMessage_waiting (f : Frame) (data : Value) :
    (f.fireMessage data).2.waiting = f.waiting ++ f.actAsks (.message data) := by
  simp only [actAsks]
  cases h : data.parameters with
  | ok p =>
    rw [fireMessage_of_ok h, waiting, List.filterMap_append, List.filterMap_replicate]
    rfl
  | error e =>
    obtain ⟨events, he⟩ := fireMessage_of_error (f := f) h
    rw [he]
    simp [waiting]

theorem act_waiting (self : Option Nat) (f : Frame) (a : Action) :
    (act self f a).2.waiting = f.waiting ++ f.actAsks a := by
  have hquiet : ∀ {g : Frame}, g.tasks = f.tasks → g.waiting = f.waiting ++ [] := fun h => by
    rw [waiting_of_tasks h, List.append_nil]
  cases a with
  | exit guest code =>
    refine hquiet ?_
    rcases callExit_cases f (self.or guest) code with ⟨closure, n, -, -, he⟩ | ⟨-, he⟩
    · simp only [act, he, signalExit_tasks]
    · simp only [act, he]
  | canvas count nested => exact hquiet rfl
  | error message => exact hquiet (fireError_tasks f message)
  | message data => exact fireMessage_waiting f data
  | key m => exact hquiet rfl

theorem act_queues (h : f.Tidy l) (self : Option Nat) (a : Action) :
    Queues (f.actAsks a) f (act self f a).2 where
  waiting := act_waiting self f a
  listeners := (act_goes h self a).drifts.steady.listeners
  closures := (act_hears h self a).closures
  width := (act_goes h self a).drifts.steady.toSameView.windowWidth

theorem actAll_queues (h : f.Tidy l) (self : Option Nat) (as : List Action) :
    Queues (as.flatMap f.actAsks) f (actAll self f as).2 := by
  rw [actAll_snd]
  induction as generalizing f with
  | nil => exact .refl f
  | cons a as ih =>
    have ha := act_queues h self a
    have hrest := ih (act_goes h self a).tidy
    rw [ha.actAsks] at hrest
    exact ha.trans hrest

theorem acted_waiting (h : f.Tidy l) (n : Nat) (g : Guest) :
    (f.acted n g).waiting = f.waiting ++ g.script.atRun.flatMap f.actAsks := by
  have hrec : Queues [] f (f.record (.runGuest g.arguments)) := .of_kept (.record _ _) rfl
  unfold acted
  split
  · next he =>
    rw [List.isEmpty_iff.mp he]
    exact hrec.waiting
  · have ha := actAll_queues (record_goes h (.runGuest g.arguments)).tidy (some n) g.script.atRun
    rw [hrec.actAsks] at ha
    exact (hrec.trans ha).waiting

theorem runScript_waiting (h : f.Tidy l) (n : Nat) (g : Guest) :
    (f.runScript n g).2.waiting = f.waiting ++ g.script.atRun.flatMap f.actAsks := by
  have hwatch : ∀ k : Frame, (k.spawn (.watching n false)).waiting = k.waiting := fun k => by
    simp [waiting, spawn, Task.command?]
  rw [← acted_waiting h n g, runScript_snd]
  split
  · exact hwatch _
  · exact hwatch _
  · rfl

theorem runGuest_waiting (h : f.Tidy l) (n : Nat) :
    (f.runGuest n).2.waiting = f.waiting ++ f.runAsks n := by
  simp only [runGuest, runAsks]
  cases f.guests[n]? with
  | none => simp
  | some g =>
    cases hg : g.script.runGetterThrows with
    | some v => simp [hg]
    | none =>
      cases hi : g.script.runInstead with
      | none =>
        simp only [hg, hi]
        exact runScript_waiting h n g
      | some v => cases v <;> simp [hg, hi]

end Actions

section Tasks

variable {f g : Frame} {b : Bridge}

theorem conclude_waiting (f : Frame) (b : Bridge) (t : Host.Turn) :
    (f.conclude b t).2.waiting = f.waiting := by
  obtain ⟨realm, bridge, locked, he⟩ := conclude_rest f b t
  rw [he]
  rfl

theorem respond_waiting (f : Frame) (turn : Session → Host.Turn) :
    (f.respond turn).2.waiting = f.waiting := by
  obtain ⟨realm, bridge, locked, he⟩ := respond_rest f turn
  rw [he]
  rfl

theorem dropHook_tasks (f : Frame) (n : Nat) : (f.dropHook n).tasks = f.tasks := by
  unfold dropHook
  split <;> rfl

theorem dropExitClosure_tasks (f : Frame) (n : Nat) : (f.dropExitClosure n).tasks = f.tasks := by
  simp only [dropExitClosure]
  split <;> rfl

theorem keepExitClosure_tasks (f : Frame) (n : Nat) : (f.keepExitClosure n).tasks = f.tasks := by
  unfold keepExitClosure
  split
  · split
    · exact dropExitClosure_tasks _ _
    · rfl
  · rfl

theorem equip_tasks (f : Frame) (o : GuestObject) (l : Host.Launch) :
    (f.equip o l).2.tasks = f.tasks := by
  have hobject : ∀ (g : Frame) (change : Guest → Guest),
      (g.updateObject o change).tasks = g.tasks := fun g change => by cases o <;> rfl
  rw [equip_eq]
  split
  · exact dropHook_tasks f _
  · exact (dropExitClosure_tasks _ _).trans (hobject f _)
  · exact (keepExitClosure_tasks _ _).trans ((hobject _ _).trans (hobject f _))

theorem stream_tasks (f : Frame) (o : GuestObject) (url : String) :
    (f.stream o url).2.tasks = f.tasks := by
  cases o with
  | nothing => rfl
  | guest n =>
    simp only [stream]
    split <;> rfl

theorem launchGuest_tasks (f : Frame) (l : Host.Launch) : (f.launchGuest l).2.tasks = f.tasks := by
  obtain ⟨scripts, guests, hc, -⟩ := constructObject_eq f
  unfold launchGuest
  split
  · rcases hm : f.constructObject with ⟨made, g⟩
    rw [hm] at hc
    obtain rfl := hc
    cases made with
    | error e => exact dropHook_tasks _ _
    | ok o =>
      have he := equip_tasks { f with scripts, guests } o l
      rcases hk : equip { f with scripts, guests } o l with ⟨ended, k⟩
      rw [hk] at he
      cases ended with
      | error e => simpa only [hk] using he
      | ok u => simpa only [hk] using (stream_tasks k o l.moduleUrl).trans he
  · exact dropHook_tasks f _

theorem startCommand_waiting (hb : f.bridge = some b) (c : Host.Command) (w : Binary64) :
    (f.startCommand c w).2.waiting = f.waiting := by
  by_cases hc : ∃ l, (b.session.command w c).progress = .launch l
  · obtain ⟨l, hp⟩ := hc
    rw [startCommand_of_launch hb hp]
    have hl := launchGuest_tasks ({ f with locked := true }.take b (b.session.command w c)) l
    unfold board
    split
    · next he =>
      rw [he] at hl
      exact waiting_of_tasks hl
    · next he =>
      rw [he] at hl
      exact (respond_waiting _ _).trans (waiting_of_tasks hl)
  · rw [startCommand_of_done hb fun l hl => hc ⟨l, hl⟩]
    exact conclude_waiting _ _ _

theorem brought_queues (hst : b.session.stage = some .launching) (url : String) :
    Queues [] f (f.brought b url) := by
  have he : b.session.Enabled (.launched (.ok ())) := hst
  have hk := b.surface.apply_kept ((Session.next_step he).captures rfl)
    (f.report (.moduleReady url)).realm
  exact .of_kept ((Realm.Kept.report _ _).trans hk) rfl

theorem bringUp_waiting (ht : f.Tidy none) (hb : f.bridge = some b)
    (hst : b.session.stage = some .launching) {n : Nat}
    (hread : readInstance (f.scriptOf (.guest n)) = .ok ()) (url : String) :
    (f.bringUp n url).2.waiting = f.waiting ++ f.runAsks n := by
  have hq := brought_queues (f := f) hst url
  have hasks : (f.brought b url).runAsks n = f.runAsks n := by
    simp only [runAsks, hq.actAsks]
    rfl
  rw [bringUp_of_read hb hread, respond_waiting, runGuest_waiting (brought_tidy ht hb hst url),
    hasks]
  rfl

theorem pollTask_waiting (ho : f.Orderly) {t : Task} (ht : t ∈ f.tasks) :
    (f.pollTask t).2.2.waiting = f.waiting ++ f.pollAsks t := by
  obtain ⟨b, hb⟩ := ho.bridge_of_mem ht
  have hquiet : ∀ {g : Frame}, g.waiting = f.waiting → g.waiting = f.waiting ++ [] :=
    fun h => by rw [h, List.append_nil]
  cases t with
  | watching n waited =>
    obtain ⟨r, -, he⟩ := (Idle.watching (f := f) n waited).polled
    rw [he]
    exact hquiet rfl
  | command c w =>
    simp only [pollTask]
    split
    · exact hquiet rfl
    · exact hquiet (startCommand_waiting hb c w)
  | running =>
    rw [pollTask_running]
    exact hquiet (respond_waiting f _)
  | loading n url =>
    simp only [pollTask, pollAsks]
    cases f.loadOf n with
    | pending => exact hquiet rfl
    | rejected v => exact hquiet (respond_waiting f _)
    | resolved =>
      cases hread : readInstance (f.scriptOf (.guest n)) with
      | error v =>
        simp only [bringUp, hread]
        exact hquiet (respond_waiting f _)
      | ok u => exact bringUp_waiting ho.tidy hb (Serves.stage hb (ho.served _ ht rfl)) hread url

end Tasks

section Happenings

variable {f : Frame}

theorem arrivals_of_waiting (ho : f.Orderly) {x : Happening} (hk : f.kept x = f.tasks)
    {cs : List (Binary64 × Host.Command)} (h : (f.next x).waiting = f.waiting ++ cs) :
    f.arrivals x = cs := by
  obtain ⟨ts, hts, -⟩ := (next_advances ho x).posted
  rw [hk] at hts
  rw [waiting, hts, List.filterMap_append] at h
  rw [arrivals_of_tasks (hk.symm ▸ hts)]
  exact List.append_cancel_left h

theorem turn_arrivals (ho : f.Orderly) (i : Nat) : f.arrivals (.turn i) = f.asked (.turn i) := by
  cases hi : f.tasks[i]? with
  | none =>
    have hlen : f.tasks.length ≤ i := List.getElem?_eq_none_iff.mp hi
    have hk : f.kept (.turn i) = f.tasks := by
      simp [kept, left?, hi, List.take_of_length_le hlen,
        List.drop_eq_nil_of_le (Nat.le_succ_of_le hlen)]
    simp only [asked, hi, Option.elim_none]
    exact arrivals_of_waiting ho hk (by rw [next, turn_of_none hi, List.append_nil])
  | some t =>
    have hmem : t ∈ f.tasks := List.mem_of_getElem? hi
    obtain ⟨b, hb⟩ := ho.bridge_of_mem hmem
    have hposted : ∃ ts, (f.pollTask t).2.2.tasks = f.tasks ++ ts := by
      rcases ho.idle_or_polled hmem with hidle | ⟨hl, hw⟩
      · obtain ⟨r, -, he⟩ := hidle.polled
        exact ⟨[], by simp [he]⟩
      · obtain ⟨es, -, hp⟩ := pollTask_polled ho.tidy hb (ho.shown b hb) hl (ho.served t hmem)
          (fun ht => ho.grounded (hl.trans ht) b hb) hw
        obtain ⟨ts, hts, -⟩ := hp.posted
        exact ⟨ts, hts⟩
    obtain ⟨ts, hts⟩ := hposted
    have hnext : (f.next (.turn i)).tasks = f.kept (.turn i) ++ ts := by
      rw [next, turn_of_some hi, leave_tasks hi hts, kept, left?_of_some hi]
    have hw := pollTask_waiting ho hmem
    rw [waiting, hts, List.filterMap_append] at hw
    rw [arrivals_of_tasks hnext, asked, hi]
    exact List.append_cancel_left hw

theorem boot_arrivals (ho : f.Orderly) (options : Value) :
    f.arrivals (.boot options) = f.asked (.boot options) := by
  refine arrivals_of_waiting ho rfl ?_
  simp only [next, asked]
  by_cases hi : f.Installable options
  · obtain ⟨g, he, hg, -⟩ := ho.install_succeeds hi
    have htasks : g.waiting = f.waiting := waiting_of_tasks (by rw [hg.rest])
    have hframe := hg.view.frameElement
    simp only [bootFromAttributes, he]
    cases hn : (Browsing.frameElement g.realm).1 with
    | error v => simpa [Except.isOk, Except.toBool] using htasks
    | ok n =>
      cases n with
      | none => simpa [Except.isOk, Except.toBool] using htasks
      | some n =>
        rw [hn] at hframe
        simp only [Except.isOk, Except.toBool, if_true, declared, currentWidth, ← hframe]
        simp only [waiting, dispatch, spawn, List.filterMap_append]
        rw [← waiting, htasks]
        rfl
  · obtain ⟨e, g, he, hu⟩ := ho.install_fails hi
    have htasks : g.waiting = f.waiting := waiting_of_tasks (by rw [Unchanged] at hu; rw [hu])
    simpa [bootFromAttributes, he, Except.isOk, Except.toBool] using htasks

theorem restart_arrivals (ho : f.Orderly) : f.arrivals .restart = f.asked .restart := by
  refine arrivals_of_waiting ho rfl ?_
  simp only [next, asked, restart]
  split
  · simp [Except.isOk, Except.toBool]
  · split
    · simp [Except.isOk, Except.toBool]
    · simp [Except.isOk, Except.toBool, waiting, dispatch, spawn, Task.command?]

theorem listen_arrivals (ho : f.Orderly) (options : Value) : f.arrivals (.listen options) = [] := by
  refine arrivals_of_waiting ho rfl ?_
  rw [List.append_nil]
  refine waiting_of_tasks ?_
  by_cases hi : f.Installable options
  · obtain ⟨g, he, hg, -⟩ := ho.install_succeeds hi
    have htasks : g.tasks = f.tasks := by rw [hg.rest]
    simp only [next, listenForMessages, he]
    split <;> exact htasks
  · obtain ⟨e, g, he, hu⟩ := ho.install_fails hi
    simp only [next, listenForMessages, he]
    rw [Unchanged] at hu
    rw [hu]

/-- A happening queues the commands that it asks for. -/
theorem arrivals_eq (ho : f.Orderly) (x : Happening) : f.arrivals x = f.asked x := by
  cases x with
  | boot options => exact boot_arrivals ho options
  | listen options => exact listen_arrivals ho options
  | restart => exact restart_arrivals ho
  | turn i => exact turn_arrivals ho i
  | act a => exact arrivals_of_waiting ho rfl (act_waiting none f a)
  | load guest outcome => exact arrivals_of_waiting ho rfl (List.append_nil _).symm
  | change page => exact arrivals_of_waiting ho rfl (List.append_nil _).symm
  | runDone guest outcome =>
    have hw : (f.settleRun guest outcome).2.waiting = f.waiting := by
      simp only [settleRun]
      split <;> rfl
    exact arrivals_of_waiting ho rfl (hw.trans (List.append_nil _).symm)

end Happenings

section Histories

variable {p : Opening} {h : List Happening}

theorem arrived_eq (p : Opening) (h : List Happening) : arrived p h = requests p h := by
  induction h with
  | nil => rfl
  | cons x h ih => rw [arrived, requests, ih, arrivals_eq (after_orderly p h)]

theorem requests_perm : (requests p h).Perm (taken p h ++ (after p h).waiting) :=
  arrived_eq p h ▸ arrived_perm

theorem started_subperm : (started p h).Subperm (requests p h) := by
  have hs : (started p h).Sublist (taken p h ++ (after p h).waiting) :=
    started_sublist.trans (List.sublist_append_left _ _)
  exact hs.subperm.trans requests_perm.symm.subperm

theorem one_task_each (p : Opening) (h : List Happening) : OneTaskEach p h where
  boot options := by
    rw [arrivals_eq (after_orderly p h), asked]
    split <;> simp_all
  restart := by
    rw [arrivals_eq (after_orderly p h), asked]
    split <;> simp_all
  message data := by
    rw [arrivals_eq (after_orderly p h), asked, actAsks]
    cases data.parameters with
    | ok q => simp [Except.isOk, Except.toBool]
    | error e => simp [Except.isOk, Except.toBool]
  heard := Nat.le_trans List.countP_le_length ((after_single p h).length_le .window "message")
  taken := requests_perm
  carriedOut := started_subperm

end Histories

end Frame

end Chip8Frame.Browser
