import FullStack.Lib.SortedMap
import FullStack.Lib.Json
import FullStack.Lib.JsonRoundTrip
import FullStack.Lib.JsonLength
import FullStack.Lib.JsonAscii
import FullStack.Lib.Proc
import FullStack.Lib.Machine
import FullStack.Lib.AtLeastOnce
import FullStack.Lib.ReadModifyWrite
import FullStack.Lib.TwoWriters
import FullStack.Lib.Async
import FullStack.Lib.Regex
import FullStack.Lib.Words
import FullStack.Lib.Places
import FullStack.Lib.Channel
import FullStack.Js
import FullStack.DynamoDb
import FullStack.GoalsApi
import FullStack.Isolation
import FullStack.ApiAnswer
import FullStack.Provenance
import FullStack.ReadPaths
import FullStack.GoalUpdate
import FullStack.Elasticsearch
import FullStack.SearchCluster
import FullStack.UpdateSearchCluster
import FullStack.BatchOutcomes
import FullStack.DocumentIdentity
import FullStack.TableStream
import FullStack.StaleReads
import FullStack.IndexPipeline
import FullStack.IndexSearch
import FullStack.SearchBodies
import FullStack.RequestAnswers
import FullStack.Alarm
import FullStack.AlarmResponse
import FullStack.AlarmFraming
import FullStack.AlarmLifecycle
import FullStack.AlarmStatus
import FullStack.AlarmFrame
import FullStack.AlarmStacks
import FullStack.AlertWebhook
import FullStack.AlertDelivery
import FullStack.AddEditGoal
import FullStack.Home
import FullStack.Client
import FullStack.OpenGoal
import FullStack.Editor
import FullStack.EditorRoute
import FullStack.ConcurrentEdits
import FullStack.ServedWrites
import FullStack.ClientIsolation
import FullStack.CreateSession
import FullStack.Authentication
import FullStack.SessionFlag
import FullStack.Pages
import FullStack.GoalLinks
import FullStack.Confirmation
import FullStack.SignupAccount
import FullStack.Email
import FullStack.EmailGrammar
import FullStack.SignInForms
import FullStack.ServiceWorker
