import Conductor.Database.Driver
import Conductor.Dispatch.Gateway
import Conductor.Matching.Ranking
import Conductor.Schema.Reader
import Conductor.Text.Split

/-! Settings, and the dispatcher and the store that they select. -/

namespace Conductor

open Reader

inductive Backend where
  | simulated
  | http
deriving Repr, DecidableEq

namespace Backend

def named : List (String × Backend) := [("simulated", .simulated), ("http", .http)]

def name : Backend → String
  | .simulated => "simulated"
  | .http => "http"

end Backend

structure DispatchConfig where
  backend : Backend
  gatewayUrl : Option String
  apiKey : Option String
  maxRetries : Int

namespace DispatchConfig

def default : DispatchConfig := ⟨.simulated, none, none, 2⟩

def ofFields (fields : Table Source) : Checked DispatchConfig :=
  DispatchConfig.mk <$> optional fields "backend" default.backend (oneOf Backend.named) <*>
    optionalText fields "gateway_url" <*> optionalText fields "api_key" <*>
    optional fields "max_retries" default.maxRetries integer

def toJson (c : DispatchConfig) : Json := .obj [
  ("backend", .str c.backend.name), ("gateway_url", .ofText? c.gatewayUrl),
  ("api_key", .ofText? c.apiKey), ("max_retries", .int c.maxRetries)]

end DispatchConfig

structure ExecutorConfig where
  maxStepExecutions : Int
  webhookTimeout : Float

namespace ExecutorConfig

def default : ExecutorConfig := ⟨1000, 30.0⟩

def ofFields (fields : Table Source) : Checked ExecutorConfig :=
  ExecutorConfig.mk <$> optional fields "max_step_executions" default.maxStepExecutions integer <*>
    optional fields "webhook_timeout_s" default.webhookTimeout double

def toJson (c : ExecutorConfig) : Json := .obj [
  ("max_step_executions", .int c.maxStepExecutions), ("webhook_timeout_s", .float c.webhookTimeout)]

end ExecutorConfig

structure MatcherConfig where
  availabilityWeight : Float
  experienceWeight : Float
  limit : Int

namespace MatcherConfig

def default : MatcherConfig := ⟨0.1, 0.05, 10⟩

def ofFields (fields : Table Source) : Checked MatcherConfig :=
  MatcherConfig.mk <$> optional fields "availability_weight" default.availabilityWeight double <*>
    optional fields "experience_weight" default.experienceWeight double <*>
    optional fields "limit" default.limit integer

def toJson (c : MatcherConfig) : Json := .obj [
  ("availability_weight", .float c.availabilityWeight),
  ("experience_weight", .float c.experienceWeight), ("limit", .int c.limit)]

end MatcherConfig

structure Config where
  databaseUrl : Option String
  dispatch : DispatchConfig
  executor : ExecutorConfig
  matcher : MatcherConfig

namespace Config

def default : Config := ⟨none, .default, .default, .default⟩

def ofFields (fields : Table Source) : Checked Config :=
  Config.mk <$> optionalText fields "database_url" <*>
    optional fields "dispatch" .default (model DispatchConfig.ofFields) <*>
    optional fields "executor" .default (model ExecutorConfig.ofFields) <*>
    optional fields "matcher" .default (model MatcherConfig.ofFields)

def ofSource : Reader Config := model ofFields

def ofJson (v : Json) : Checked Config := ofSource (.json v)

def toJson (c : Config) : Json := .obj [
  ("database_url", .ofText? c.databaseUrl), ("dispatch", c.dispatch.toJson),
  ("executor", c.executor.toJson), ("matcher", c.matcher.toJson)]

end Config

/-- The channel to agents that a configuration selects. -/
inductive Channel where
  | simulated
  | gateway (g : Gateway)

namespace Channel

def ofConfig (c : Config) : Except Fault Channel :=
  match c.dispatch.backend with
  | .simulated => .ok .simulated
  | .http =>
    match given? c.dispatch.gatewayUrl with
    | none => .error .noGatewayUrl
    | some url =>
      .ok (.gateway ⟨url, c.dispatch.apiKey, .int c.dispatch.maxRetries, Gateway.defaultBackoff⟩)

def dispatcher : Channel → Dispatcher
  | .simulated => .simulated
  | .gateway g => g.send

end Channel

namespace Database

/-- A text with another one in the place of the one that it starts with. -/
def swap? (old new : String) (s : List Char) : Option String :=
  (List.isPrefixOf? old.toList s).map fun rest => String.ofList (new.toList ++ rest)

/-- The same database by the name of the driver that is used for it. -/
def normalize (url : String) : Except Fault String :=
  let s := url.toList
  if (List.isPrefixOf? "sqlite+".toList s).isSome || (List.isPrefixOf? "postgresql+".toList s).isSome then
    .ok url
  else
    match (swap? "sqlite://" "sqlite+aiosqlite://" s).orElse fun _ =>
        (swap? "postgres://" "postgresql+asyncpg://" s).orElse fun _ =>
          swap? "postgresql://" "postgresql+asyncpg://" s with
    | some url => .ok url
    | none => .error (.unsupportedDatabase url)

/-- The url that the surroundings give under either of two names. -/
def ofSurroundings (env : Table String) : Option String :=
  [Table.get? env "CLAWFLOW_DATABASE_URL", Table.get? env "DATABASE_URL"].findSome? given?

/-- The first url that is there and not empty: the one asked for, that of the surroundings, that of
the configuration. -/
def choose (url : Option String) (env : Table String) (c : Config) : Option String :=
  [url, ofSurroundings env, c.databaseUrl].findSome? given?

/-- The url of a database that can be used. -/
def usable (url : String) : Except Fault String := do
  let url ← normalize url
  match (Url.parse url.toList).bind Url.check with
  | .ok () => return url
  | .error problem => .error (.noDatabase problem)

/-- The url of the database to use; none for a store in memory. -/
def select (url : Option String) (env : Table String) (c : Config) : Except Fault (Option String) :=
  (choose url env c).mapM usable

end Database

end Conductor
