import Runbook.Proofs.Calls
import Runbook.Proofs.Yield
import Runbook.Web.Interface

/-! # Responses

A request leads to a part of the interface, whose attempt to answer it comes to a response, to a fault or to
a cancellation. Each of them has a status, and that is the status of the response, whatever identifier the
request has and however long the answer takes.
-/

namespace Runbook

variable {σ α β : Type} {fault : Fault}

/-! ## Faults -/

/-- Whatever fault there is has the property. -/
def FailsWith (P : Fault → Prop) (r : Except Fault α) : Prop := ∀ fault, r = .error fault → P fault

namespace FailsWith

variable {P Q : Fault → Prop} {r : Except Fault α}

theorem ok (a : α) : FailsWith P (.ok a : Except Fault α) := nofun

theorem error (holds : P fault) : FailsWith P (.error fault : Except Fault α) := by
  intro other same
  exact Except.error.inj same ▸ holds

theorem mono (fails : FailsWith P r) (weaker : ∀ fault, P fault → Q fault) : FailsWith Q r :=
  fun fault bad => weaker fault (fails fault bad)

theorem map (f : α → β) (fails : FailsWith P r) : FailsWith P (r.map f) := by
  cases r with
  | ok a => exact ok (f a)
  | error fault => exact error (fails fault rfl)

theorem bind {f : α → Except Fault β} (first : FailsWith P r) (last : ∀ a, FailsWith P (f a)) :
    FailsWith P (r >>= f) := by
  cases r with
  | ok a => exact last a
  | error fault => exact error (first fault rfl)

theorem mapM {f : β → Except Fault α} (each : ∀ b, FailsWith P (f b)) (items : List β) :
    FailsWith P (items.mapM f) := by
  induction items with
  | nil => exact ok []
  | cons b rest ih =>
    rw [List.mapM_cons]
    exact (each b).bind fun a => ih.bind fun others => ok (a :: others)

end FailsWith

theorem ok_of_bind {r : Except Fault α} {f : α → Except Fault β} {b : β} (ok : (r >>= f) = .ok b) :
    ∃ a, r = .ok a ∧ f a = .ok b := by
  cases r with
  | ok a => exact ⟨a, rfl, ok⟩
  | error fault => cases ok

/-- The status that the interface answers a fault with. -/
def Fault.reply (fault : Fault) : Nat :=
  match fault.family with
  | .refusal status => (status.integer?.getD 500).toNat
  | .value => 400
  | _ => 500

/-! ## Requests -/

namespace Web

/-- The status of the response to whatever answering a request comes to. -/
def statusOf : Except Interrupt Response → Nat
  | .ok response => response.status
  | .error (.cancelled _) => 500
  | .error (.fault fault) => fault.reply

/-- A response that fits what answering a request has come to. -/
structure Answers (outcome : Except Interrupt Response) (response : Response) : Prop where
  status : response.status = statusOf outcome
  content : ∀ given, outcome = .ok given → response.content = given.content

/-- The methods of a part of the interface. -/
def Endpoint.methods : Endpoint → List String
  | .guide | .reference => ["GET", "HEAD"]
  | .submit | .cancel | .acknowledge => ["POST"]
  | .clearHistory => ["DELETE"]
  | _ => ["GET"]

theorem methods_of_mem_routes {s : Settings} {x : Route} (listed : x ∈ routes s) :
    x.methods = x.endpoint.methods := by
  simp only [routes, healthRoutes, executionRoutes, List.mem_append, List.mem_cons, List.not_mem_nil,
    or_false] at listed
  rcases listed with ((development | (rfl | rfl)) | (rfl | rfl)) | rest
  · split at development
    · simp only [List.mem_cons, List.not_mem_nil, or_false] at development
      rcases development with rfl | rfl | rfl <;> rfl
    · cases development
  iterate 4 rfl
  rcases rest with rfl | rfl | rfl | rfl | rfl | rfl | rfl | rfl | rfl <;> rfl

/-- A request leads to a part of the interface over one of the routes, by a method of that route. -/
theorem mem_of_route {all : List Route} {method path id : String} {endpoint : Endpoint}
    (leads : route all method path = .endpoint endpoint id) :
    ∃ x ∈ all, x.endpoint = endpoint ∧ method ∈ x.methods := by
  simp only [route] at leads
  split at leads
  · rename_i x part found
    cases leads
    have taken := List.find?_some found
    obtain ⟨y, listed, matched⟩ := List.mem_filterMap.mp (List.mem_of_find?_eq_some found)
    obtain ⟨_, _, same⟩ := Option.map_eq_some_iff.mp matched
    cases same
    exact ⟨x, listed, rfl, by simpa using taken⟩
  · split at leads
    · cases leads
    · split at leads <;> cases leads

namespace Interface

variable {i : Interface σ} {r : Request} {endpoint : Endpoint} {id : String}

/-- The request leads to a part of the interface, with an identifier in its path. -/
def Leads (i : Interface σ) (r : Request) (endpoint : Endpoint) (id : String) : Prop :=
  route (routes i.settings) r.method r.path = .endpoint endpoint id

theorem Leads.method (leads : i.Leads r endpoint id) : r.method ∈ endpoint.methods := by
  obtain ⟨x, listed, rfl, allowed⟩ := mem_of_route leads
  rwa [methods_of_mem_routes listed] at allowed

theorem Leads.dispatch (leads : i.Leads r endpoint id) : i.dispatch r = i.serve r id endpoint := by
  unfold Leads at leads
  simp only [Interface.dispatch, leads]

/-- A request that neither asks for permission nor for headers only. -/
def Plain (r : Request) : Prop := r.method ≠ "OPTIONS" ∧ r.method ≠ "HEAD"

theorem Leads.plain (leads : i.Leads r endpoint id) (known : endpoint ≠ .guide ∧ endpoint ≠ .reference) :
    Plain r := by
  have method := leads.method
  constructor <;> intro same <;> rw [same] at method <;> cases endpoint <;>
    simp_all [Endpoint.methods]

theorem status_markOrigin (s : Settings) (origin : Option String) (response : Response) :
    (markOrigin s origin response).status = response.status := by
  unfold markOrigin
  split
  · split <;> rfl
  · rfl

theorem content_markOrigin (s : Settings) (origin : Option String) (response : Response) :
    (markOrigin s origin response).content = response.content := by
  unfold markOrigin
  split
  · split <;> rfl
  · rfl

/-- Around the attempt to answer a request there are only two looks at the clock; the response fits what the
attempt has come to. -/
theorem respond_eq (i : Interface σ) (r : Request) (number : Nat) (plain : Plain r) :
    ∃ reply : Float → Except Interrupt Response → Float → Response,
      (∀ begun outcome ended, Answers outcome (reply begun outcome ended)) ∧
      i.respond r number = Routine.clock.bind fun begun => (ExceptT.run (i.dispatch r)).bind fun outcome =>
        Routine.clock.bind fun ended => .done (reply begun outcome ended) := by
  have tracked : question? r = none := by
    unfold question?
    split
    · simp [plain.1]
    · rfl
  have whole (response : Response) : response.forMethod r.method = response := by
    simp [Response.forMethod, plain.2]
  simp only [Interface.respond, tracked, whole]
  refine ⟨?reply, ?fits, ?same⟩
  case same =>
    simp only [Interface.track, bind, Routine.bind_bind]
    rfl
  case fits =>
    intro begun outcome ended
    constructor
    · rw [status_markOrigin]
      cases outcome with
      | ok response => rfl
      | error interrupt =>
        cases interrupt with
        | cancelled message => rfl
        | fault fault =>
          simp only [answered?, statusOf, Fault.reply]
          cases fault.family <;> rfl
    · rintro given rfl
      rw [content_markOrigin]
      rfl

/-- A request whose answer waits for nobody is answered at once. -/
theorem respond_ahead (number : Nat) {w w' : World σ} {outcome : Except Interrupt Response} (plain : Plain r)
    (first : (ExceptT.run (i.dispatch r)).ahead w = (.done outcome, w')) :
    ∃ response, (i.respond r number).ahead w = (.done response, w') ∧ Answers outcome response := by
  obtain ⟨reply, fits, same⟩ := i.respond_eq r number plain
  refine ⟨reply w.agenda.now outcome w'.agenda.now, ?_, fits ..⟩
  rw [same]
  exact Routine.ahead_bind _ first

end Interface

end Web

end Runbook
