import PushDelivery.Proofs.Dispatch.Cutoff
import PushDelivery.Proofs.Dispatch.Isolation
import PushDelivery.Proofs.Dispatch.Redelivery
import PushDelivery.Proofs.Dispatch.Routing
import PushDelivery.Proofs.Endpoint.SubscriptionId
import PushDelivery.Proofs.Push.Complaints
import PushDelivery.Proofs.Push.Contents
import PushDelivery.Proofs.Push.Counting
import PushDelivery.Proofs.Push.Credentials
import PushDelivery.Proofs.Push.Independence
import PushDelivery.Proofs.Push.NotificationId
import PushDelivery.Proofs.Push.Order
import PushDelivery.Proofs.Push.Refusal
import PushDelivery.Proofs.Record.Objects
import PushDelivery.Proofs.Record.RoundTrip
import PushDelivery.Proofs.Settings.Decoding
import PushDelivery.Proofs.Settings.Idle
import PushDelivery.Proofs.Settings.Overriding
import PushDelivery.Proofs.Store.History
