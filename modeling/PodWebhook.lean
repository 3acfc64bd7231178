import PodWebhook.Main
import PodWebhook.Proofs.Admission.Review
import PodWebhook.Proofs.Admission.Rounds
import PodWebhook.Proofs.Schema.Typing
import PodWebhook.Proofs.Schema.Writing
import PodWebhook.Proofs.Admission.Answers
import PodWebhook.Proofs.Admission.Verdict
import PodWebhook.Proofs.Http.Routing
import PodWebhook.Proofs.Admission.Agreement
import PodWebhook.Proofs.Log.Reports
import PodWebhook.Proofs.Log.Entries
import PodWebhook.Proofs.Schema.Wording
import PodWebhook.Proofs.Log.Lines
import PodWebhook.Proofs.Json.Tokens
import PodWebhook.Proofs.Json.Terms
import PodWebhook.Proofs.Json.Skimming
import PodWebhook.Proofs.Json.Likeness
import PodWebhook.Proofs.Json.Layout
import PodWebhook.Proofs.Schema.Steady
import PodWebhook.Proofs.Admission.Spelling
import PodWebhook.Proofs.Admission.Exactness
import PodWebhook.Proofs.Pod.Laws
import PodWebhook.Proofs.Admission.Attaching
import PodWebhook.Proofs.Admission.Reencoding
import PodWebhook.Proofs.Http.ContentType
import PodWebhook.Proofs.Command.Resolution
import PodWebhook.Proofs.Command.Exports
import PodWebhook.Proofs.Command.Binding
import PodWebhook.Proofs.Admission.Display
import PodWebhook.Proofs.Cluster.Lookups
