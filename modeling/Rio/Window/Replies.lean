import Rio.Window.Focus
import Rio.Lib.Runs

/-! What terminals are answered: requests wait with the window until it handles them. -/

set_option linter.dupNamespace false

namespace Rio.Window
open Layout

structure ColorRgb where
  r : ℕ
  g : ℕ
  b : ℕ
  deriving DecidableEq, Repr

structure WinsizeBuilder where
  rows : ℕ
  cols : ℕ
  width : ℕ
  height : ℕ
  deriving DecidableEq, Repr

/-- The events that are answered, each with the route of the terminal that sent it. -/
inductive RioEvent
  | clipboardLoad (routeId : ℕ) (format : String → String)
  | ptyWrite (routeId : ℕ) (text : String)
  | textAreaSizeRequest (routeId : ℕ) (format : WinsizeBuilder → String)
  | colorRequest (routeId index : ℕ) (format : ColorRgb → String)

def RioEvent.routeId : RioEvent → ℕ
  | .clipboardLoad routeId _ => routeId
  | .ptyWrite routeId _ => routeId
  | .textAreaSizeRequest routeId _ => routeId
  | .colorRequest routeId _ _ => routeId

/-- The index of the color of the cursor. -/
def namedColorCursor : ℕ := 258

structure RouteWindow (F : Type) where
  contextManager : ContextManager F
  isFocused : Bool
  clipboard : String
  rendererColors : ℕ → ColorRgb
  /-- The colors that the terminal of a route changed. -/
  colors : ℕ → ℕ → Option ColorRgb
  /-- The size of the panel of a route. -/
  dimensions : ℕ → WinsizeBuilder
  /-- The events not handled yet. -/
  events : List RioEvent
  /-- What the messengers of contexts were given, in this order. -/
  inputs : List (Context × String)

variable {F : Type}

namespace RouteWindow

/-- A terminal would hang if it were sent nothing. -/
def sendBytes (w : RouteWindow F) (context : Context) (text : String) : RouteWindow F :=
  if text.isEmpty then w else { w with inputs := w.inputs ++ [(context, text)] }

/-- Handle an event. -/
def userEvent (w : RouteWindow F) : RioEvent → RouteWindow F
  | .clipboardLoad routeId format =>
    if w.isFocused then
      let text := format w.clipboard
      match w.contextManager.getByRouteId routeId with
      | some item => w.sendBytes item text
      | none => w
    else w
  | .ptyWrite routeId text =>
    match w.contextManager.getByRouteId routeId with
    | some item => w.sendBytes item text
    | none => w
  | .textAreaSizeRequest routeId format =>
    match w.contextManager.getByRouteId routeId with
    | some item => w.sendBytes item (format (w.dimensions item.routeId))
    | none => w
  | .colorRequest routeId index format =>
    match w.contextManager.getByRouteId routeId with
    | none => w
    | some item =>
      match w.colors item.routeId index with
      | some color => w.sendBytes item (format color)
      | none =>
        -- The color of the cursor is reported only where it was changed.
        if index = namedColorCursor then w
        else w.sendBytes item (format (w.rendererColors index))

end RouteWindow

/-- What happens to a window. -/
inductive WindowOp (F : Type)
  | tab (op : Op F)
  | focus (isFocused : Bool)
  | clipboard (text : String)
  | rendererColors (colors : ℕ → ColorRgb)
  | color (routeId index : ℕ) (color : Option ColorRgb)
  | dimensions (routeId : ℕ) (size : WinsizeBuilder)
  /-- A terminal sends an event. -/
  | sendEvent (event : RioEvent)
  /-- The oldest event is handled. -/
  | userEvent

namespace RouteWindow

def step [Number F] (taffy : Taffy F) (w : RouteWindow F) : WindowOp F → RouteWindow F
  | .tab op => { w with contextManager := Window.step taffy w.contextManager op }
  | .focus isFocused => { w with isFocused }
  | .clipboard clipboard => { w with clipboard }
  | .rendererColors rendererColors => { w with rendererColors }
  | .color routeId index color =>
    { w with
      colors := Function.update w.colors routeId
        (Function.update (w.colors routeId) index color) }
  | .dimensions routeId size => { w with dimensions := Function.update w.dimensions routeId size }
  | .sendEvent event => { w with events := w.events ++ [event] }
  | .userEvent =>
    match w.events with
    | [] => w
    | event :: events => { w with events }.userEvent event

/-- A window with one tab. -/
def new (contextManager : ContextManager F) (rendererColors : ℕ → ColorRgb) : RouteWindow F :=
  { contextManager
    isFocused := true
    clipboard := ""
    rendererColors
    colors := fun _ _ => none
    dimensions := fun _ => ⟨0, 0, 0, 0⟩
    events := []
    inputs := [] }

/-! ### Answers -/

/-- What a terminal is to be answered; nothing where the window is not focused, or where the color
of the cursor was not changed. -/
def answer (w : RouteWindow F) (context : Context) : RioEvent → String
  | .clipboardLoad _ format => if w.isFocused then format w.clipboard else ""
  | .ptyWrite _ text => text
  | .textAreaSizeRequest _ format => format (w.dimensions context.routeId)
  | .colorRequest _ index format =>
    match w.colors context.routeId index with
    | some color => format color
    | none => if index = namedColorCursor then "" else format (w.rendererColors index)

theorem sendBytes_empty (w : RouteWindow F) (context : Context) : w.sendBytes context "" = w := rfl

theorem userEvent_eq (w : RouteWindow F) (event : RioEvent) : w.userEvent event =
    match w.contextManager.getByRouteId event.routeId with
    | some context => w.sendBytes context (w.answer context event)
    | none => w := by
  cases event with
  | clipboardLoad routeId format =>
    unfold userEvent answer RioEvent.routeId
    dsimp only
    cases w.isFocused <;> cases w.contextManager.getByRouteId routeId <;> rfl
  | ptyWrite routeId text => rfl
  | textAreaSizeRequest routeId format => rfl
  | colorRequest routeId index format =>
    unfold userEvent answer RioEvent.routeId
    dsimp only
    cases w.contextManager.getByRouteId routeId with
    | none => rfl
    | some context =>
      dsimp only
      cases w.colors context.routeId index with
      | some color => rfl
      | none =>
        dsimp only
        by_cases hindex : index = namedColorCursor
        · rw [if_pos hindex, if_pos hindex, sendBytes_empty]
        · rw [if_neg hindex, if_neg hindex]

/-- What the messenger of a context is given for an event. -/
def reply (w : RouteWindow F) (context : Context) (event : RioEvent) : List (Context × String) :=
  if (w.answer context event).isEmpty then [] else [(context, w.answer context event)]

theorem inputs_sendBytes (w : RouteWindow F) (context : Context) (event : RioEvent) :
    (w.sendBytes context (w.answer context event)).inputs = w.inputs ++ w.reply context event := by
  unfold sendBytes reply
  split
  · rw [List.append_nil]
  · rfl

theorem getByRouteId_eq_none {m : ContextManager F} {r : ℕ} (h : ∀ c ∈ m.vals, c.routeId ≠ r) :
    m.getByRouteId r = none := by
  unfold ContextManager.getByRouteId
  cases hgrid : m.currentGrid with
  | none => rfl
  | some g =>
    refine List.find?_eq_none.mpr fun c hc heq => ?_
    exact h c (ContextManager.mem_vals_of_getElem? hgrid hc) (of_decide_eq_true heq)

/-- A context is found in the current tab alone. -/
theorem getByRouteId_eq {m : ContextManager F} (hm : m.Held) {c : Context} (hc : c ∈ m.vals) :
    m.getByRouteId c.routeId =
      if c ∈ (m.currentGrid.map (·.vals)).getD [] then some c else none := by
  unfold ContextManager.getByRouteId
  cases hgrid : m.currentGrid with
  | none => rfl
  | some g =>
    have hunique (c' : Context) (hc' : c' ∈ g.vals) (heq : c'.routeId = c.routeId) : c' = c :=
      hm.eq_of_routeId (ContextManager.mem_vals_of_getElem? hgrid hc') hc heq
    by_cases hmem : c ∈ g.vals
    · refine Eq.trans ?_ (if_pos hmem).symm
      cases hfind : g.vals.find? fun context => decide (context.routeId = c.routeId) with
      | none =>
        exact absurd (decide_eq_true rfl) (List.find?_eq_none.mp hfind c hmem)
      | some c' =>
        have heq : c'.routeId = c.routeId := of_decide_eq_true
          (List.find?_some (p := fun context : Context => decide (context.routeId = c.routeId)) hfind)
        exact hfind.trans (congrArg some (hunique c' (List.mem_of_find?_eq_some hfind) heq))
    · refine Eq.trans ?_ (if_neg hmem).symm
      refine List.find?_eq_none.mpr fun c' hc' heq => hmem ?_
      exact hunique c' hc' (of_decide_eq_true heq) ▸ hc'

variable [Number F] {taffy : Taffy F} {w : RouteWindow F}

/-- What a step has to lead to: an event is handled once, with one reply to the context that sent
it, when that still exists, and none to others. -/
structure StepOk (taffy : Taffy F) (w : RouteWindow F) (op : WindowOp F) : Prop where
  handled : ∀ event events, op = .userEvent → w.events = event :: events →
    (step taffy w op).events = events ∧
      (∀ c ∈ w.contextManager.vals, c.routeId = event.routeId →
        (step taffy w op).inputs = w.inputs ++ w.reply c event) ∧
      ((∀ c ∈ w.contextManager.vals, c.routeId ≠ event.routeId) →
        (step taffy w op).inputs = w.inputs)
  waiting : op ≠ .userEvent ∨ w.events = [] →
    (step taffy w op).inputs = w.inputs ∧ ∃ sent, (step taffy w op).events = w.events ++ sent

omit [Number F] in
/-- An event that is answered is handled while the context that sent it is in the current tab. -/
def Permits (w : RouteWindow F) (op : WindowOp F) : Prop :=
  ∀ event events, op = .userEvent → w.events = event :: events →
    ∀ c ∈ w.contextManager.vals, c.routeId = event.routeId → w.answer c event = "" ∨
      c ∈ (w.contextManager.currentGrid.map (·.vals)).getD []

theorem step_userEvent {event : RioEvent} {events : List RioEvent}
    (h : w.events = event :: events) :
    step taffy w .userEvent = { w with events }.userEvent event := by
  unfold step
  dsimp only
  rw [h]

omit [Number F] in
theorem events_sendBytes (w : RouteWindow F) (context : Context) (text : String) :
    (w.sendBytes context text).events = w.events ∧
      (w.sendBytes context text).contextManager = w.contextManager := by
  unfold sendBytes
  split <;> exact ⟨rfl, rfl⟩

omit [Number F] in
theorem events_userEvent (w : RouteWindow F) (event : RioEvent) :
    (w.userEvent event).events = w.events ∧
      (w.userEvent event).contextManager = w.contextManager := by
  rw [userEvent_eq]
  split
  · exact w.events_sendBytes _ _
  · exact ⟨rfl, rfl⟩

omit [Number F] in
theorem inputs_userEvent (hheld : w.contextManager.Held) {c : Context}
    (hc : c ∈ w.contextManager.vals) {event : RioEvent} (hr : c.routeId = event.routeId) :
    (w.userEvent event).inputs =
      if c ∈ (w.contextManager.currentGrid.map (·.vals)).getD [] then w.inputs ++ w.reply c event
      else w.inputs := by
  rw [userEvent_eq, ← hr, getByRouteId_eq hheld hc]
  by_cases hcurrent : c ∈ (w.contextManager.currentGrid.map (·.vals)).getD []
  · rw [if_pos hcurrent, if_pos hcurrent]
    exact w.inputs_sendBytes c event
  · rw [if_neg hcurrent, if_neg hcurrent]

theorem stepOk_iff (hheld : w.contextManager.Held) (op : WindowOp F) :
    StepOk taffy w op ↔ w.Permits op := by
  constructor
  · rintro hok event events rfl hevents c hc hr
    have hinputs := (hok.handled event events rfl hevents).2.1 c hc hr
    rw [step_userEvent hevents] at hinputs
    have hdelivered := inputs_userEvent (w := { w with events }) hheld hc hr
    by_cases hcurrent : c ∈ (w.contextManager.currentGrid.map (·.vals)).getD []
    · exact .inr hcurrent
    · refine .inl ?_
      rw [if_neg hcurrent] at hdelivered
      have hnone : w.reply c event = [] :=
        List.self_eq_append_right.mp (hdelivered.symm.trans hinputs)
      unfold reply at hnone
      split at hnone
      · rename_i hempty
        exact String.isEmpty_iff.mp hempty
      · exact absurd hnone nofun
  · intro hpermits
    constructor
    · rintro event events rfl hevents
      rw [step_userEvent hevents]
      refine ⟨(events_userEvent _ event).1, fun c hc hr => ?_, fun hgone => ?_⟩
      · have hdelivered := inputs_userEvent (w := { w with events }) hheld hc hr
        obtain hempty | hcurrent := hpermits event events rfl hevents c hc hr
        · have hnone : w.reply c event = [] := by
            unfold reply
            rw [hempty]
            rfl
          rw [hnone, List.append_nil]
          refine hdelivered.trans ?_
          split
          · exact (congrArg (w.inputs ++ ·) hnone).trans (List.append_nil _)
          · rfl
        · exact hdelivered.trans (if_pos hcurrent)
      · rw [userEvent_eq]
        have hnone : ({ w with events } : RouteWindow F).contextManager.getByRouteId
            event.routeId = none := getByRouteId_eq_none hgone
        rw [hnone]
    · intro hwait
      cases op with
      | userEvent =>
        have hnil := hwait.resolve_left (not_not.mpr rfl)
        have hstep : step taffy w .userEvent = w := by
          unfold step
          dsimp only
          rw [hnil]
        exact ⟨congrArg inputs hstep, [], by rw [hstep, List.append_nil]⟩
      | sendEvent event => exact ⟨rfl, [event], rfl⟩
      | _ => exact ⟨rfl, [], (List.append_nil _).symm⟩

theorem held_step (hheld : w.contextManager.Held) (op : WindowOp F) :
    (step taffy w op).contextManager.Held := by
  cases op with
  | tab op => exact hheld.step op
  | userEvent =>
    cases hevents : w.events with
    | nil =>
      unfold step
      rw [hevents]
      exact hheld
    | cons event events =>
      rw [step_userEvent hevents, (events_userEvent _ event).2]
      exact hheld
  | _ => exact hheld

/-- In a run of tab operations, requests and their handling, in any order, each request is answered
once, to the context that sent it if that still exists, exactly when what is answered is handled
while that context is in the current tab. -/
theorem run_replies_iff (taffy : Taffy F) (spawned : Bool) (routeIdCounter richTextId : ℕ)
    (width height scale : F) (scaledMargin : Sides F) (panel : Panel F) (isNative : Bool)
    (rendererColors : ℕ → ColorRgb) (ops : List (WindowOp F)) :
    let w := new (.start taffy spawned (routeIdCounter + 1) 0 richTextId width height scale
      scaledMargin panel isNative) rendererColors
    Runs.Permitted (step taffy) (StepOk taffy) w ops ↔ Runs.Permitted (step taffy) Permits w ops :=
  Runs.permitted_congr (p := fun _ => True) (I := fun w => w.contextManager.Held)
    (fun _ op hw _ _ => held_step hw op) (fun _ op hw _ => stepOk_iff hw op) ops _
    (fun _ _ => trivial) (ContextManager.held_start ..)

/-- The terminal of the first tab is not answered while the second one is current. -/
theorem reply_lost :
    let w := [WindowOp.tab (.addContext true true 1), .sendEvent (.ptyWrite 1 "0n"),
      .userEvent].foldl (step Layout.shares) (new firstWindow fun _ => ⟨0, 0, 0⟩)
    ⟨1, 0⟩ ∈ w.contextManager.vals ∧ w.events.length = 0 ∧ w.inputs = [] := by
  decide +kernel

end RouteWindow

end Rio.Window
